import OpenELB.BgpPaths

/-! # What is assumed of gobgp

gobgp keeps the local paths of a prefix by their path identifiers: `AddPath` puts a path
in the place of the one with its identifier, `DeletePath` takes the path with that
identifier out, and `ListPath` for an address reports the paths of its host prefix, or
nothing if there are none.  Stopping BGP drops all paths.  `bgpExec` says so.

`bgpRun` runs code against these rules, with given orders for what they leave open. -/
namespace OpenELB.Bgp
open Go Prog

/-! ## The table of gobgp -/

/-- A prefix: the address, and the length. -/
abbrev Key := Option IP × Nat

/-- The prefix of a path. -/
def ApiPath.key (p : ApiPath) : Key := (parseIP p.addr, p.prefixLen)

/-- The prefix of one host. -/
def hostKey (ip : String) : Key := (parseIP ip, hostLen ip)

/-- The local paths, by prefix and identifier. -/
structure Rib where
  paths : Map (Key × UInt32) ApiPath
  keyed : ∀ k p, paths.get k = some p → k = (p.key, p.identifier)

namespace Rib

theorem keyed_empty (k : Key × UInt32) (p : ApiPath)
    (h : (Map.empty : Map (Key × UInt32) ApiPath).get k = some p) :
    k = (p.key, p.identifier) := by
  rw [Map.get_empty] at h
  cases h

/-- No paths. -/
def empty : Rib := ⟨Map.empty, keyed_empty⟩

theorem keyed_set (rib : Rib) (q : ApiPath) (k : Key × UInt32) (p : ApiPath)
    (h : (rib.paths.set (q.key, q.identifier) q).get k = some p) : k = (p.key, p.identifier) := by
  revert k p
  exact Map.forall_get_set rfl fun k p _ => rib.keyed k p

/-- The table after `AddPath`. -/
def add (rib : Rib) (q : ApiPath) : Rib :=
  ⟨rib.paths.set (q.key, q.identifier) q, rib.keyed_set q⟩

theorem keyed_delete (rib : Rib) (q : ApiPath) (k : Key × UInt32) (p : ApiPath)
    (h : (rib.paths.delete (q.key, q.identifier)).get k = some p) : k = (p.key, p.identifier) := by
  revert k p
  exact Map.forall_get_delete fun k p _ => rib.keyed k p

/-- The table after `DeletePath`. -/
def delete (rib : Rib) (q : ApiPath) : Rib :=
  ⟨rib.paths.delete (q.key, q.identifier), rib.keyed_delete q⟩

/-- The path of a prefix with an identifier. -/
def get (rib : Rib) (k : Key) (id : UInt32) : Option ApiPath := rib.paths.get (k, id)

theorem get_add (rib : Rib) (q : ApiPath) (k : Key) (id : UInt32) :
    (rib.add q).get k id = if k = q.key ∧ id = q.identifier then some q else rib.get k id := by
  simp only [get, add, Map.get_set, Prod.mk.injEq]

theorem get_delete (rib : Rib) (q : ApiPath) (k : Key) (id : UInt32) :
    (rib.delete q).get k id = if k = q.key ∧ id = q.identifier then none else rib.get k id := by
  simp only [get, delete, Map.get_delete, Prod.mk.injEq]

/-- The list has all paths of a prefix, in some order. -/
def Lists (rib : Rib) (k : Key) (ps : List ApiPath) : Prop :=
  ∃ ids : List UInt32, ids.Nodup ∧ (∀ id, id ∈ ids ↔ (rib.get k id).isSome) ∧
    ps = ids.filterMap (rib.get k)

theorem Lists.mem_iff {rib : Rib} {k : Key} {ps : List ApiPath} (h : rib.Lists k ps) {p : ApiPath} :
    p ∈ ps ↔ ∃ id, rib.get k id = some p := by
  obtain ⟨ids, -, hids, rfl⟩ := h
  rw [List.mem_filterMap]
  constructor
  · rintro ⟨id, -, hp⟩
    exact ⟨id, hp⟩
  · rintro ⟨id, hp⟩
    exact ⟨id, (hids id).mpr (by rw [hp]; rfl), hp⟩

/-- The next hops of a prefix. -/
def nexthops (rib : Rib) (k : Key) : Set String :=
  {n | ∃ id p, rib.get k id = some p ∧ p.nexthop = some n}

end Rib

/-- What is reported of a stored path: its prefix and identifier, and all of it if it is
an IPv4 path with an IPv4 next hop. -/
def Reported (p q : ApiPath) : Prop :=
  q.addr = p.addr ∧ q.prefixLen = p.prefixLen ∧ q.identifier = p.identifier ∧
    (isV4 p.addr = true → (∀ n, p.nexthop = some n → isV4 n = true) → q = p)

/-- What is reported of a stored path, in full: the next hop of an IPv4 prefix in a
`NextHopAttribute` if it is an IPv4 address, and every other next hop in an
`MpReachNLRIAttribute`. -/
def report (p : ApiPath) : ApiPath :=
  if isV4 p.addr = true ∧ p.nexthop.all isV4 = true then p
  else { p with nexthop := none, mpReach := p.nexthop }

theorem reported_report (p : ApiPath) : Reported p (report p) := by
  rw [report]
  split
  · exact ⟨rfl, rfl, rfl, fun _ _ => rfl⟩
  · rename_i hnot
    refine ⟨rfl, rfl, rfl, fun haddr hnext => absurd ⟨haddr, ?_⟩ hnot⟩
    rw [Option.all_eq_true]
    exact hnext

/-! ## What gobgp does -/

/-- The AS number of the running BGP, 0 if there is none, the speaker's rack, and the
table. -/
structure BgpState where
  as : Nat := 0
  rack : String := ""
  rib : Rib := Rib.empty

/-- What gobgp may answer and do.  Requests to it may fail, and then have no effect. -/
def bgpExec : (c : BgpCall) → BgpState → BgpReply c → BgpState → Prop
  | .getBgp, s, r, s' => (r = .ok s.as ∨ s.as = 0 ∧ ∃ e, r = .error e) ∧ s' = s
  | .listPath _ ip, s, r, s' =>
    ((∃ e, r = .error e) ∨ r = .ok none ∧ (∀ id, s.rib.get (hostKey ip) id = none) ∨
      ∃ ps qs, s.rib.Lists (hostKey ip) ps ∧ List.Forall₂ Reported ps qs ∧ r = .ok (some qs)) ∧
    s' = s
  | .addPath p, s, r, s' =>
    r = .ok () ∧ s' = { s with rib := s.rib.add p } ∨ (∃ e, r = .error e) ∧ s' = s
  | .deletePath p, s, r, s' =>
    r = .ok () ∧ s' = { s with rib := s.rib.delete p } ∨ (∃ e, r = .error e) ∧ s' = s
  | .getRack, s, r, s' => r = s.rack ∧ s' = s
  | .setRack rack, s, _, s' => s' = { s with rack := rack }
  | .stopBgp, s, r, s' =>
    r = .ok () ∧ s' = { s with as := 0, rib := Rib.empty } ∨ (∃ e, r = .error e) ∧ s' = s
  | .startBgp as _, s, r, s' =>
    r = .ok () ∧ s' = { s with as := as, rib := Rib.empty } ∨ (∃ e, r = .error e) ∧ s' = s
  | .rangeKeys m, s, r, s' => m.Ranges r ∧ s' = s

/-! ## Running code -/

theorem Reported.refl (p : ApiPath) : Reported p p := ⟨rfl, rfl, rfl, fun _ _ => rfl⟩

/-- The identifiers of the paths of a prefix. -/
def Rib.ids (rib : Rib) (k : Key) : Finset UInt32 :=
  ((Option.getD rib.paths ∅).keys.filter fun x => x.1 = k).image Prod.snd

theorem Rib.mem_ids {rib : Rib} {k : Key} {id : UInt32} :
    id ∈ rib.ids k ↔ (rib.get k id).isSome := by
  rw [Rib.ids, Finset.mem_image]
  constructor
  · rintro ⟨⟨k', id'⟩, hx, rfl⟩
    obtain ⟨hmem, rfl⟩ := Finset.mem_filter.mp hx
    exact Map.mem_keys.mp hmem
  · intro h
    exact ⟨(k, id), Finset.mem_filter.mpr ⟨Map.mem_keys.mpr h, rfl⟩, rfl⟩

/-- The answers of gobgp when nothing fails, with the maps ranged over and the paths
listed in the given orders. -/
def bgpRun (order : List String) (ids : List UInt32) :
    (c : BgpCall) → BgpState → Option (BgpReply c × BgpState)
  | .getBgp, s => some (.ok s.as, s)
  | .listPath _ ip, s =>
    let found := ids.filter fun id => id ∈ s.rib.ids (hostKey ip)
    if found.Nodup ∧ found.toFinset = s.rib.ids (hostKey ip) then
      some (.ok (some (found.filterMap (s.rib.get (hostKey ip)))), s)
    else none
  | .addPath p, s => some (.ok (), { s with rib := s.rib.add p })
  | .deletePath p, s => some (.ok (), { s with rib := s.rib.delete p })
  | .getRack, s => some (s.rack, s)
  | .setRack rack, s => some ((), { s with rack := rack })
  | .stopBgp, s => some (.ok (), { s with as := 0, rib := Rib.empty })
  | .startBgp as _, s => some (.ok (), { s with as := as, rib := Rib.empty })
  | .rangeKeys m, s =>
    let keys := order.filter fun key => (m.get key).isSome
    if m.Ranges keys then some (keys, s) else none

theorem exec_of_bgpRun {order : List String} {ids : List UInt32} (c : BgpCall) (s : BgpState)
    (r : BgpReply c) (s' : BgpState) (h : bgpRun order ids c s = some (r, s')) :
    bgpExec c s r s' := by
  cases c with
  | getBgp =>
    cases h
    exact ⟨Or.inl rfl, rfl⟩
  | listPath family ip =>
    simp only [bgpRun] at h
    split at h
    · rename_i hfound
      cases h
      refine ⟨Or.inr (Or.inr ⟨_, _, ⟨_, hfound.1, fun id => ?_, rfl⟩, ?_, rfl⟩), rfl⟩
      · rw [← List.mem_toFinset, hfound.2, Rib.mem_ids]
      · exact List.forall₂_same.mpr fun p _ => Reported.refl p
    · cases h
  | getRack =>
    cases h
    exact ⟨rfl, rfl⟩
  | setRack rack =>
    cases h
    exact rfl
  | rangeKeys m =>
    obtain ⟨hr, he⟩ := Option.ite_none_right_eq_some.mp h
    cases he
    exact ⟨hr, rfl⟩
  | _ =>
    cases h
    exact Or.inl ⟨rfl, rfl⟩

end OpenELB.Bgp
