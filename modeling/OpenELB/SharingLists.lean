import OpenELB.PoolInvariant
import OpenELB.PoolSizes

/-! # The services that share an address

The value of an entry of `Used` is the list of the services at the address, joined with
semicolons.  An assignment appends to it, a release and a sync split it, drop services and
join the rest again.

A release undoes an assignment (`release_undoes_assign`).  The lists are well formed as long
as no service asks for an address it has in another spelling (`lists_well_formed`): whether
it has the address is tested with the text of the request, and the list is that of the
address the text stands for. -/
namespace OpenELB
open Go Code

/-! ## Values -/

section Values
variable {key svcs : String}

theorem releaseValue_of_notMem (h : key ∉ split ';' svcs) : releaseValue key svcs = some svcs :=
  if_neg h

/-- The last service takes the entry with it. -/
theorem releaseValue_self (hkey : ';' ∉ key.toList) : releaseValue key key = none := by
  rw [releaseValue, split_of_notMem hkey, if_pos (List.mem_singleton.mpr rfl),
    if_pos List.length_singleton]

/-- A release takes away what sharing has appended. -/
theorem releaseValue_shared (hkey : ';' ∉ key.toList) (hnew : key ∉ split ';' svcs) :
    releaseValue key (svcs ++ ";" ++ key) = some svcs := by
  have hsplit : split ';' (svcs ++ ";" ++ key) = split ';' svcs ++ [key] := split_append hkey
  have hlen : (split ';' svcs ++ [key]).length ≠ 1 := by
    have hpos := List.length_pos_iff.mpr (show split ';' svcs ≠ [] from split_ne_nil svcs)
    rw [List.length_append, List.length_singleton]
    omega
  have hrest : removeString (split ';' svcs ++ [key]) key = split ';' svcs := by
    have hold : removeString (split ';' svcs) key = split ';' svcs := removeString_of_notMem hnew
    rw [removeString] at hold ⊢
    rw [List.filter_append, hold]
    simp
  rw [releaseValue, hsplit, if_pos (List.mem_append_right _ (List.mem_singleton.mpr rfl)),
    if_neg hlen, hrest, join_split]

end Values

/-! ## Release undoes assignment -/

/-- Every entry is what it was. -/
theorem Assigned.get_release {allocate : SvcRecord} {e e' : Eip} {addr : String}
    {keys : List String} (h : Assigned allocate e addr e') (hkey : ';' ∉ allocate.key.toList)
    (hnew : ∀ a, allocate.key ∉ e.listed a) (hkeys : e'.status.used.Ranges keys)
    (hdel : e'.deletionTimestamp = false) (a : String) :
    (releaseIPFromEip keys allocate.key e').status.used.get a = e.status.used.get a := by
  have hold : ∀ a svcs, e.status.used.get a = some svcs → allocate.key ∉ split ';' svcs := by
    intro a svcs hget
    rw [← Eip.listed_of_get hget]
    exact hnew a
  have hbind : (e.status.used.get a).bind (releaseValue allocate.key) = e.status.used.get a := by
    cases hget : e.status.used.get a with
    | none => rfl
    | some svcs => exact releaseValue_of_notMem (hold a svcs hget)
  rw [get_releaseIPFromEip _ hkeys hdel]
  cases h with
  | already hmem => exact absurd hmem (hnew _)
  | free _ hget =>
    show ((e.status.used.set addr allocate.key).get a).bind _ = _
    rw [Map.get_set]
    by_cases ha : a = addr
    · rw [if_pos ha, Option.bind_some, releaseValue_self hkey, ha, hget]
    · rw [if_neg ha, hbind]
  | @shared _ tmp _ _ _ hget =>
    show ((e.status.used.set addr (tmp ++ ";" ++ allocate.key)).get a).bind _ = _
    rw [Map.get_set]
    by_cases ha : a = addr
    · rw [if_pos ha, Option.bind_some, releaseValue_shared hkey (hold addr tmp hget), ha, hget]
    · rw [if_neg ha, hbind]

/-! The map is never nil after the first sync. -/

theorem trace_syncUsed_isNil {m used used' : Map String String} {ks : List String}
    {log : List (Prog.Event Call Reply)} (hused : used.isNil = false)
    (h : Prog.Trace Honest (syncUsed m ks used) log (.ok used')) : used'.isNil = false := by
  induction ks generalizing used log with
  | nil =>
    obtain ⟨-, ho, -⟩ := run_pure_iff.mp h
    cases ho
    exact hused
  | cons k ks ih =>
    obtain ⟨out, l₁, l₂, s₁, -, h₂, -⟩ := run_bind_ok h
    refine ih ?_ h₂
    split
    · rfl
    · exact hused

theorem trace_syncEip_isNil {e e' : Eip} {log : List (Prog.Event Call Reply)}
    (h : Prog.Trace Honest (syncEip e) log (.ok e')) : e'.status.used.isNil = false := by
  rw [syncEip, api_bind] at h
  obtain ⟨ks, s₁, log', -, hrun, -⟩ := Prog.run_call_iff.mp h
  obtain ⟨used, l₁, l₂, s₂, h₁, h₂, -⟩ := run_bind_ok hrun
  obtain ⟨-, ho, -⟩ := run_pure_iff.mp h₂
  cases ho
  exact trace_syncUsed_isNil rfl h₁

theorem trace_updateEip_isNil {e e' : Eip} {log : List (Prog.Event Call Reply)}
    (h : Prog.Trace Honest (updateEip e) log (.ok e')) : e'.status.used.isNil = false := by
  unfold updateEip at h
  split at h
  · split at h
    · exact trace_syncEip_isNil h
    · cases (run_crash_iff.mp h).2.1
  · exact trace_syncEip_isNil h

theorem isNil_releaseIPFromEip {e : Eip} (keys : List String) (svcInfo : String)
    (h : e.status.used.isNil = false) :
    (releaseIPFromEip keys svcInfo e).status.used.isNil = false := by
  unfold releaseIPFromEip
  split
  · exact h
  · rw [used_foldl_releaseEntry]
    exact Map.isNil_foldl_visit _ keys h

theorem Assigned.isNil {allocate : SvcRecord} {e e' : Eip} {addr : String}
    (h : Assigned allocate e addr e') (hnil : e.status.used.isNil = false) :
    e'.status.used.isNil = false := by
  cases h with
  | already _ => exact hnil
  | free _ _ => rfl
  | shared _ _ _ => rfl

theorem PoolStep.isNil {e e' : Eip} (h : PoolStep e e') (hnil : e.status.used.isNil = false) :
    e'.status.used.isNil = false := by
  cases h with
  | assign _ ha => exact (assignIPFromEip_ok ha).2.2.isNil hnil
  | assignFails _ _ => exact hnil
  | release _ => exact isNil_releaseIPFromEip _ _ hnil
  | sync hs => exact trace_syncEip_isNil hs
  | syncFails _ => exact hnil

theorem PoolRun.isNil {e e' : Eip} (h : PoolRun e e') (hnil : e.status.used.isNil = false) :
    e'.status.used.isNil = false := by
  induction h with
  | refl => exact hnil
  | tail _ hs ih => exact hs.isNil ih

/-- An assignment to a service that has no address finds one in the pool, so there is one. -/
theorem Assigned.one_le_poolSize {allocate : SvcRecord} {e e' : Eip} {addr : String}
    (h : Assigned allocate e addr e') (hnew : ∀ a, allocate.key ∉ e.listed a) :
    1 ≤ e.status.poolSize := by
  have haddr : e.HasAddr addr := by
    cases h with
    | already hmem => exact absurd hmem (hnew _)
    | free haddr _ => exact haddr
    | shared _ haddr _ => exact haddr
  obtain ⟨offset, h0, hlt, -⟩ := haddr
  omega

/-- **Release undoes allocation.**  In every state that assignments, releases and syncs reach
from the initialisation of an Eip, if an assignment to a service that is listed nowhere
succeeds, whatever address it asks for, then releasing the service gives back the Eip as it
was before: the map of uses, `Usage`, `Occupied` and the rest. -/
theorem release_undoes_assign {e₀ e₁ e e' : Eip} {log : List (Prog.Event Call Reply)}
    {keys keys' : List String} {allocate : SvcRecord} {addr : String}
    (hempty : ∀ a, e₀.status.used.get a = none)
    (hinit : Prog.Trace Honest (updateEip e₀) log (.ok e₁)) (hrun : PoolRun e₁ e)
    (hkey : ';' ∉ allocate.key.toList) (hnew : ∀ a, allocate.key ∉ e.listed a)
    (hkeys' : e'.status.used.Ranges keys')
    (hassign : assignIPFromEip keys allocate e = .ok (addr, e')) :
    releaseIPFromEip keys' allocate.key e' = e := by
  obtain ⟨hdel, -, ha⟩ := assignIPFromEip_ok hassign
  have hsame := ha.sameButUsed
  have hpos : 1 ≤ e₁.status.poolSize := by
    rw [← hrun.sameButUsed.poolSize]
    exact ha.one_le_poolSize hnew
  have hok := hrun.poolOk (poolOk_of_updateEip hempty hinit hpos)
  have hok' := (hok.assigned ha).releaseIPFromEip keys' allocate.key
  have hnil := hrun.isNil (trace_updateEip_isNil hinit)
  have hdel' : e'.deletionTimestamp = false := by rw [hsame]; exact hdel
  have hused : (releaseIPFromEip keys' allocate.key e').status.used = e.status.used :=
    Map.ext ((isNil_releaseIPFromEip _ _ (ha.isNil hnil)).trans hnil.symm)
      (ha.get_release hkey hnew hkeys' hdel')
  -- the other two records are functions of the map
  have hsame' := hsame.trans (sameButUsed_releaseIPFromEip keys' allocate.key e')
  have husage : (releaseIPFromEip keys' allocate.key e').status.usage = e.status.usage := by
    rw [hok'.usage, hok.usage, hused]
  have hocc : (releaseIPFromEip keys' allocate.key e').status.occupied = e.status.occupied := by
    rw [Bool.eq_iff_iff, hok'.occupied, hok.occupied, husage, hsame'.poolSize]
  rw [hsame', hused, husage, hocc]

theorem release_undoes_assign_twoAddresses :
    ∃ e e', PoolRun twoAddressesReady e ∧ e.status.used.get "192.0.2.1" = some "ns/a" ∧
      assignIPFromEip ["192.0.2.1"] ⟨"ns/b", "192.0.2.1", "pool"⟩ e = .ok ("192.0.2.1", e') ∧
      e'.status.used.get "192.0.2.1" = some "ns/a;ns/b" ∧
      releaseIPFromEip ["192.0.2.1"] "ns/b" e' = e := by
  have hrun : PoolRun twoAddressesReady (twoAddressesReady.addEntry "192.0.2.1" "ns/a") :=
    .single (.assign (show Map.empty.Ranges [] by decide) (assignIPFromEip_twoAddressesReady "ns/a"))
  have hassign : assignIPFromEip ["192.0.2.1"] ⟨"ns/b", "192.0.2.1", "pool"⟩
      (twoAddressesReady.addEntry "192.0.2.1" "ns/a") = .ok ("192.0.2.1",
        (twoAddressesReady.addEntry "192.0.2.1" "ns/a").shareEntry "192.0.2.1" "ns/a" "ns/b") := by
    decide +kernel
  have hnew : ∀ a, "ns/b" ∉ (twoAddressesReady.addEntry "192.0.2.1" "ns/a").listed a := by
    intro a
    by_cases ha : a = "192.0.2.1"
    · rw [ha]
      decide +kernel
    · rw [Eip.listed_of_get_none (Map.get_set_ne _ _ ha)]
      exact List.not_mem_nil
  exact ⟨_, _, hrun, by decide +kernel, hassign, by decide +kernel,
    release_undoes_assign (fun _ => rfl) trace_updateEip_twoAddresses hrun (by decide) hnew
      (by decide +kernel) hassign⟩

/-! ## Well-formed lists -/

/-- The text `ns/name` of a service. -/
def ServiceKey (s : String) : Prop := ∃ k : NamespacedName, k.Valid ∧ s = k.text

theorem ServiceKey.ne_empty {s : String} (h : ServiceKey s) : s ≠ "" := by
  obtain ⟨k, -, rfl⟩ := h
  exact NamespacedName.Valid.text_ne_empty

theorem ServiceKey.semicolon_notMem {s : String} (h : ServiceKey s) : ';' ∉ s.toList := by
  obtain ⟨k, hk, rfl⟩ := h
  exact hk.semicolon_notMem

/-- The value joins a list of services that is not empty and has none of them twice. -/
def WellListed (svcs : String) : Prop :=
  ∃ l : List String, l ≠ [] ∧ svcs = join ';' l ∧ l.Nodup ∧ ∀ s ∈ l, ServiceKey s

theorem wellListed_iff {svcs : String} :
    WellListed svcs ↔ (split ';' svcs).Nodup ∧ ∀ s ∈ split ';' svcs, ServiceKey s := by
  constructor
  · rintro ⟨l, hne, rfl, hl, hkeys⟩
    rw [split_join hne fun s hs => (hkeys s hs).semicolon_notMem]
    exact ⟨hl, hkeys⟩
  · rintro ⟨hl, hkeys⟩
    exact ⟨split ';' svcs, split_ne_nil svcs, (join_split svcs).symm, hl, hkeys⟩

/-- A list without duplicates that has a string and more is not that string alone. -/
theorem removeString_ne_nil {l : List String} {s : String} (hl : l.Nodup) (hs : s ∈ l)
    (hlen : l.length ≠ 1) : removeString l s ≠ [] := by
  intro hnil
  have hall : ∀ x ∈ l, x = s := by
    intro x hx
    by_contra hne
    have hmem := mem_removeString.mpr ⟨hx, hne⟩
    rw [hnil] at hmem
    cases hmem
  rw [List.eq_replicate_of_mem hall, List.nodup_replicate] at hl
  have hpos := List.length_pos_of_mem hs
  omega

/-- What a release leaves of a value is well formed. -/
theorem WellListed.releaseValue {svcs svcs' svcInfo : String} (h : WellListed svcs)
    (hr : OpenELB.releaseValue svcInfo svcs = some svcs') : WellListed svcs' := by
  obtain ⟨hl, hkeys⟩ := wellListed_iff.mp h
  rw [OpenELB.releaseValue] at hr
  split at hr
  · rename_i hmem
    split at hr
    · cases hr
    · rename_i hlen
      cases hr
      refine ⟨_, removeString_ne_nil hl hmem hlen, rfl, hl.filter _, fun s hs => ?_⟩
      exact hkeys s (mem_removeString.mp hs).1
  · cases hr
    exact h

/-- All values are well formed. -/
def Eip.ListsOk (e : Eip) : Prop :=
  ∀ a svcs, e.status.used.get a = some svcs → WellListed svcs

theorem Eip.listsOk_iff {e : Eip} :
    e.ListsOk ↔ ∀ a, (e.listed a).Nodup ∧ ∀ s ∈ e.listed a, ServiceKey s := by
  constructor
  · intro h a
    cases hget : e.status.used.get a with
    | none =>
      rw [Eip.listed_of_get_none hget]
      exact ⟨List.nodup_nil, fun s hs => by cases hs⟩
    | some svcs =>
      rw [Eip.listed_of_get hget]
      exact wellListed_iff.mp (h a svcs hget)
  · intro h a svcs hget
    have ha := h a
    rw [Eip.listed_of_get hget] at ha
    exact wellListed_iff.mpr ha

/-- The request spells an address the service has as it is spelled in `Used`: if the service
is listed at the address the request leads to, it is listed under the text of the request. -/
def Eip.Spelled (e : Eip) (allocate : SvcRecord) : Prop :=
  ∀ ip a, parseIP allocate.ip = some ip → 0 ≤ e.ipToOrdinal ip →
    e.addrAt (e.ipToOrdinal ip) = some a → allocate.key ∈ e.listed a →
    allocate.key ∈ e.listed allocate.ip

/-! ### One step -/

section Step
variable {e e' : Eip} {keys : List String} {allocate : SvcRecord} {addr : String}

/-- An assignment that does not find the service under the text of the request uses a free
address, or the one that the request leads to. -/
theorem free_or_leads (hkeys : e.status.used.Ranges keys)
    (h : assignIPFromEip keys allocate e = .ok (addr, e'))
    (hmem : allocate.key ∉ e.listed allocate.ip) :
    e.status.used.get addr = none ∨
      ∃ ip, parseIP allocate.ip = some ip ∧ 0 ≤ e.ipToOrdinal ip ∧
        e.addrAt (e.ipToOrdinal ip) = some addr := by
  obtain ⟨hdel, hdis, -⟩ := assignIPFromEip_ok h
  cases hparse : parseIP allocate.ip with
  | none =>
    rw [assignIPFromEip_of_parseIP_none hdel hdis hkeys hmem hparse] at h
    obtain ⟨i, -, -, -, ⟨hfree, -⟩ | ⟨hnamed, -⟩⟩ := scanPool_ok h
    · exact .inl hfree
    · cases hnamed
  | some ip =>
    rw [assignIPFromEip_of_parseIP_some hdel hdis hkeys hmem hparse] at h
    split at h
    · cases h
    · rename_i hord
      exact .inr ⟨ip, rfl, not_lt.mp hord, (scanPool_true_ok h).1⟩

theorem Eip.Spelled.eq_or_notMem (hspelled : e.Spelled allocate) (hkeys : e.status.used.Ranges keys)
    (h : assignIPFromEip keys allocate e = .ok (addr, e')) :
    e' = e ∨ allocate.key ∉ e.listed addr := by
  by_cases hmem : allocate.key ∈ e.listed allocate.ip
  · obtain ⟨hdel, hdis, -⟩ := assignIPFromEip_ok h
    rw [assignIPFromEip_of_mem hdel hdis hkeys hmem] at h
    cases h
    exact .inl rfl
  · refine .inr fun hin => ?_
    rcases free_or_leads hkeys h hmem with hfree | ⟨ip, hip, h0, hat⟩
    · rw [Eip.listed_of_get_none hfree] at hin
      cases hin
    · exact hmem (hspelled ip addr hip h0 hat hin)

/-- **An assignment keeps the lists well formed exactly if it spells the address right.** -/
theorem Eip.ListsOk.assign_iff (hok : e.ListsOk) (hkey : ServiceKey allocate.key)
    (hkeys : e.status.used.Ranges keys)
    (h : assignIPFromEip keys allocate e = .ok (addr, e')) :
    e'.ListsOk ↔ e.Spelled allocate := by
  obtain ⟨hdel, hdis, ha⟩ := assignIPFromEip_ok h
  rw [Eip.listsOk_iff] at hok ⊢
  constructor
  · intro hok' ip a hip h0 hat hin
    by_contra hmem
    rw [assignIPFromEip_of_parseIP_some hdel hdis hkeys hmem hip, if_neg (by omega)] at h
    cases hat.symm.trans (scanPool_true_ok h).1
    rcases ha.listed_eq hkey.semicolon_notMem with ⟨-, rfl, -⟩ | hlist
    · exact hmem hin
    · -- the service is on the list a second time
      have hdup := (hok' addr).1
      rw [hlist, if_pos rfl] at hdup
      exact List.disjoint_of_nodup_append hdup hin (List.mem_singleton.mpr rfl)
  · intro hspelled a
    rcases ha.listed_eq hkey.semicolon_notMem with ⟨rfl, -⟩ | hlist
    · exact hok a
    rcases hspelled.eq_or_notMem hkeys h with rfl | hnew
    · exact hok a
    rw [hlist]
    split
    · rename_i haddr
      subst haddr
      obtain ⟨hl, hall⟩ := hok a
      refine ⟨hl.append (List.nodup_singleton _) ?_, fun s hs => ?_⟩
      · rw [List.disjoint_singleton]
        exact hnew
      · rcases List.mem_append.mp hs with hs | hs
        · exact hall s hs
        · rw [List.mem_singleton.mp hs]
          exact hkey
    · exact hok a

theorem Eip.ListsOk.releaseIPFromEip (hok : e.ListsOk) (hkeys : e.status.used.Ranges keys)
    (svcInfo : String) : (OpenELB.releaseIPFromEip keys svcInfo e).ListsOk := by
  cases hdel : e.deletionTimestamp with
  | true =>
    rw [OpenELB.releaseIPFromEip, if_pos hdel]
    exact hok
  | false =>
    intro a svcs hget
    rw [get_releaseIPFromEip svcInfo hkeys hdel] at hget
    obtain ⟨old, hold, hr⟩ := Option.bind_eq_some_iff.mp hget
    exact (hok a old hold).releaseValue hr

theorem Eip.ListsOk.synced {log : List (Prog.Event Call Reply)} (hok : e.ListsOk)
    (hs : Synced log e e') : e'.ListsOk := by
  rw [Eip.listsOk_iff] at hok ⊢
  intro a
  have hsub := (hs.kept a).sublist
  exact ⟨(hok a).1.sublist hsub, fun s hmem => (hok a).2 s (hsub.subset hmem)⟩

end Step

/-! ### Runs -/

/-- One operation: an assignment to a service, which spells the address right, a release or a
sync. -/
inductive ListStep : Eip → Eip → Prop
  | assign {e e' : Eip} {keys : List String} {allocate : SvcRecord} {addr : String} :
      e.status.used.Ranges keys → ServiceKey allocate.key → e.Spelled allocate →
      assignIPFromEip keys allocate e = .ok (addr, e') → ListStep e e'
  | assignFails {e : Eip} {keys : List String} {allocate : SvcRecord} {err : Err} :
      e.status.used.Ranges keys → assignIPFromEip keys allocate e = .err err → ListStep e e
  | release {e : Eip} {keys : List String} {svcInfo : String} :
      e.status.used.Ranges keys → ListStep e (releaseIPFromEip keys svcInfo e)
  | sync {e e' : Eip} {log : List (Prog.Event Call Reply)} :
      Prog.Trace Honest (syncEip e) log (.ok e') → ListStep e e'
  | syncFails {e : Eip} {log : List (Prog.Event Call Reply)} {err : Err} :
      Prog.Trace Honest (syncEip e) log (.err err) → ListStep e e

/-- What the steps keep: the lists are well formed, and an Eip that was being deleted when it
was new gives out no addresses. -/
structure Eip.ListsInv (e : Eip) : Prop where
  lists : e.ListsOk
  deleting : e.deletionTimestamp = true → ∀ a, e.status.used.get a = none

theorem ListStep.listsInv {e e' : Eip} (h : ListStep e e') (hinv : e.ListsInv) : e'.ListsInv := by
  cases h with
  | assign hkeys hkey hspelled ha =>
    obtain ⟨hdel, -, hassigned⟩ := assignIPFromEip_ok ha
    refine ⟨(hinv.lists.assign_iff hkey hkeys ha).mpr hspelled, fun hdel' => ?_⟩
    rw [hassigned.sameButUsed] at hdel'
    cases hdel.symm.trans hdel'
  | assignFails => exact hinv
  | @release keys svcInfo hkeys =>
    refine ⟨hinv.lists.releaseIPFromEip hkeys svcInfo, fun hdel => ?_⟩
    rw [sameButUsed_releaseIPFromEip keys svcInfo e] at hdel
    rw [releaseIPFromEip, if_pos (show e.deletionTimestamp = true from hdel)]
    exact hinv.deleting hdel
  | sync hs =>
    have hsync := trace_syncEip hs
    refine ⟨hinv.lists.synced hsync, fun hdel a => ?_⟩
    rw [hsync.same] at hdel
    by_contra hsome
    have hold := hsync.get a (Option.isSome_iff_ne_none.mpr hsome)
    rw [hinv.deleting hdel a] at hold
    cases hold
  | syncFails => exact hinv

theorem listsInv_of_updateEip {e e₁ : Eip} {log : List (Prog.Event Call Reply)}
    (hempty : ∀ a, e.status.used.get a = none)
    (hinit : Prog.Trace Honest (updateEip e) log (.ok e₁)) : e₁.ListsInv := by
  obtain ⟨e₂, he₂, hs⟩ := trace_updateEip hinit
  have hused : e₂.status.used = e.status.used := by
    rcases he₂ with rfl | ⟨-, he₂⟩
    · rfl
    · exact (initStatus_some he₂).2.1
  have hnone : ∀ a, e₁.status.used.get a = none := by
    intro a
    by_contra hsome
    have hold := hs.get a (Option.isSome_iff_ne_none.mpr hsome)
    rw [hused, hempty] at hold
    cases hold
  refine ⟨fun a svcs hget => ?_, fun _ => hnone⟩
  rw [hnone] at hget
  cases hget

/-- **The lists of services stay well formed.**  In every run of assignments, releases and
syncs from the initialisation of an Eip in which no service asks for an address it has in
another spelling, every value of `Used` joins a list of services that is not empty and has
no service twice, and right after a release of a service no value lists it.  And from there
an assignment keeps the values well formed exactly if it is not such a request. -/
theorem lists_well_formed {e₀ e₁ e : Eip} {log : List (Prog.Event Call Reply)}
    (hempty : ∀ a, e₀.status.used.get a = none)
    (hinit : Prog.Trace Honest (updateEip e₀) log (.ok e₁))
    (hrun : Relation.ReflTransGen ListStep e₁ e) :
    (∀ a svcs, e.status.used.get a = some svcs → WellListed svcs) ∧
      (∀ keys svcInfo, e.status.used.Ranges keys →
        ∀ a, svcInfo ∉ (releaseIPFromEip keys svcInfo e).listed a) ∧
      ∀ keys allocate addr e', e.status.used.Ranges keys → ServiceKey allocate.key →
        assignIPFromEip keys allocate e = .ok (addr, e') →
        ((∀ a svcs, e'.status.used.get a = some svcs → WellListed svcs) ↔
          e.Spelled allocate) := by
  have hinv : e.ListsInv := by
    induction hrun with
    | refl => exact listsInv_of_updateEip hempty hinit
    | tail _ hs ih => exact hs.listsInv ih
  refine ⟨hinv.lists, fun keys svcInfo hkeys a => ?_, fun keys allocate addr e' hkeys hkey ha => ?_⟩
  · cases hdel : e.deletionTimestamp with
    | true =>
      rw [releaseIPFromEip, if_pos hdel, Eip.listed_of_get_none (hinv.deleting hdel a)]
      exact List.not_mem_nil
    | false =>
      by_cases hsvc : svcInfo = ""
      · -- the empty text is on no list
        intro hmem
        have hlists := Eip.listsOk_iff.mp (hinv.lists.releaseIPFromEip hkeys svcInfo)
        exact ((hlists a).2 svcInfo hmem).ne_empty hsvc
      · exact notMem_listed_releaseIPFromEip hsvc hkeys hdel a
  · exact hinv.lists.assign_iff hkey hkeys ha

theorem serviceKey_a : ServiceKey "ns/a" := ⟨⟨"ns", "a"⟩, ⟨by decide, by decide⟩, by decide⟩

theorem lists_well_formed_twoAddresses :
    ∃ e, Relation.ReflTransGen ListStep twoAddressesReady e ∧
      e.status.used.get "192.0.2.1" = some "ns/a" ∧
      "ns/a" ∉ (releaseIPFromEip ["192.0.2.1"] "ns/a" e).listed "192.0.2.1" := by
  have hspelled : twoAddressesReady.Spelled ⟨"ns/a", "", "pool"⟩ := by
    intro ip a hip
    cases (show parseIP "" = none by decide).symm.trans hip
  have hrun : Relation.ReflTransGen ListStep twoAddressesReady
      (twoAddressesReady.addEntry "192.0.2.1" "ns/a") :=
    .single (.assign (show Map.empty.Ranges [] by decide) serviceKey_a hspelled
      (assignIPFromEip_twoAddressesReady "ns/a"))
  obtain ⟨-, hrelease, -⟩ := lists_well_formed (fun _ => rfl) trace_updateEip_twoAddresses hrun
  exact ⟨_, hrun, by decide +kernel, hrelease ["192.0.2.1"] "ns/a" (by decide +kernel) _⟩

/-- The pool with two IPv6 addresses as the controller leaves it when it is new. -/
def pairReady : Eip :=
  { pairEip with status := {
      poolSize := 2, used := Map.empty, firstIP := "2001:db8::1", lastIP := "2001:db8::2" } }

/-- **A service can be listed twice.**  It asks for `2001:db8::1` and then, for the same
address, for `2001:0db8::1`.  A release then leaves an empty value. -/
theorem lists_duplicate :
    ∃ log e₁ e₂, Prog.Trace Honest (updateEip pairEip) log (.ok pairReady) ∧
      ServiceKey "ns/a" ∧
      assignIPFromEip [] ⟨"ns/a", "2001:db8::1", "pair"⟩ pairReady = .ok ("2001:db8::1", e₁) ∧
      assignIPFromEip ["2001:db8::1"] ⟨"ns/a", "2001:0db8::1", "pair"⟩ e₁ =
        .ok ("2001:db8::1", e₂) ∧
      e₂.status.used.get "2001:db8::1" = some "ns/a;ns/a" ∧ ¬ WellListed "ns/a;ns/a" ∧
      (releaseIPFromEip ["2001:db8::1"] "ns/a" e₂).status.used.get "2001:db8::1" = some "" ∧
      ¬ WellListed "" := by
  have hstatus : initStatus pairEip = some { pairReady with status.used := Map.nil } := by
    decide +kernel
  have hinit : Prog.Trace Honest (updateEip pairEip) [⟨.rangeUsed Map.nil, []⟩] (.ok pairReady) :=
    (trace_updateEip_fresh rfl).mpr (.inl ⟨_, hstatus, rfl, rfl⟩)
  have hfirst : assignIPFromEip [] ⟨"ns/a", "2001:db8::1", "pair"⟩ pairReady =
      .ok ("2001:db8::1", pairReady.addEntry "2001:db8::1" "ns/a") := by decide +kernel
  have hsecond : assignIPFromEip ["2001:db8::1"] ⟨"ns/a", "2001:0db8::1", "pair"⟩
      (pairReady.addEntry "2001:db8::1" "ns/a") = .ok ("2001:db8::1",
        (pairReady.addEntry "2001:db8::1" "ns/a").shareEntry "2001:db8::1" "ns/a" "ns/a") := by
    decide +kernel
  have htwice : ¬ WellListed "ns/a;ns/a" := by
    rw [wellListed_iff]
    exact fun h => absurd h.1 (by decide +kernel)
  have hnone : ¬ WellListed "" := by
    rw [wellListed_iff]
    exact fun h => (h.2 "" (by decide +kernel)).ne_empty rfl
  exact ⟨_, _, _, hinit, serviceKey_a, hfirst, hsecond, by decide +kernel, htwice,
    by decide +kernel, hnone⟩

end OpenELB
