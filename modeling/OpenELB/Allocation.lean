import OpenELB.EipTypes

/-! # Giving out and taking back addresses of one Eip

`Manager.assignIPFromEip` and `Manager.releaseIPFromEip`, which work on a copy of
an Eip in memory.  Both range over `Status.Used`; `keys` is the order of that
loop.

What they can do to an Eip is said once: `Assigned` lists the three ways in which
an assignment succeeds, and `assignIPFromEip_ok` shows that there are no others;
`get_releaseIPFromEip` says what a release leaves of every entry. -/
namespace OpenELB
open Go

/-- `svcRecord`: a service key, an address and the name of an Eip. -/
structure SvcRecord where
  key : String
  ip : String
  eip : String
  deriving DecidableEq

namespace Eip

/-- The service keys listed at an address. -/
def listed (e : Eip) (addr : String) : List String :=
  match e.status.used.get addr with
  | some svcs => split ';' svcs
  | none => []

/-- The text of the address with the given offset, as the loop of
`assignIPFromEip` computes it; `none` when that panics. -/
def addrAt (e : Eip) (offset : Int) : Option String :=
  match cnetParseIP e.status.firstIP with
  | none => none
  | some first => (incrementIP first offset).map ipString

/-- A new entry for an address that nobody has. -/
def addEntry (e : Eip) (addr key : String) : Eip :=
  let used := e.status.used.set addr key
  { e with status := { e.status with
      used := used
      usage := used.len
      occupied := if (used.len : Int) = e.status.poolSize then true else e.status.occupied } }

/-- One more service for an address that `tmp` has. -/
def shareEntry (e : Eip) (addr tmp key : String) : Eip :=
  { e with status := { e.status with used := e.status.used.set addr (tmp ++ ";" ++ key) } }

/-- The entry of an address goes away. -/
def dropEntry (e : Eip) (addr : String) : Eip :=
  let used := e.status.used.delete addr
  { e with status := { e.status with
      used := used
      usage := used.len
      occupied := if (used.len : Int) ≠ e.status.poolSize then false else e.status.occupied } }

/-- The entry of an address gets a new value. -/
def setEntry (e : Eip) (addr svcs : String) : Eip :=
  { e with status := { e.status with used := e.status.used.set addr svcs } }

end Eip

/-! ## Assignment -/

/-- The second loop of `assignIPFromEip`, with `fuel` iterations left.  A service
that names an address shares it, one that does not looks for a free one. -/
def scanPool (named : Bool) (key : String) (eip : Eip) : Nat → Int → Outcome (String × Eip)
  | 0, _ => .err (.text "no suitable ip to allocate")
  | fuel + 1, offset =>
    match eip.addrAt offset with
    | none => .panic
    | some addr =>
      match eip.status.used.get addr with
      | none => .ok (addr, eip.addEntry addr key)
      | some tmp =>
        if named then .ok (addr, eip.shareEntry addr tmp key)
        else scanPool named key eip fuel (offset + 1)

/-- The first loop of `assignIPFromEip`: the service already has the address it
names. -/
def alreadyAssigned (keys : List String) (allocate : SvcRecord) (eip : Eip) : Bool :=
  keys.any fun addr =>
    (eip.listed addr).any fun svc => svc = allocate.key ∧ allocate.ip = addr

/-- `Manager.assignIPFromEip`: the address, and the Eip as it leaves it. -/
def assignIPFromEip (keys : List String) (allocate : SvcRecord) (eip : Eip) :
    Outcome (String × Eip) :=
  if eip.deletionTimestamp then .err (.text ("eip:" ++ eip.name ++ " is deleting"))
  else if eip.spec.disable then .err (.text ("eip:" ++ eip.name ++ " is disabled"))
  else if alreadyAssigned keys allocate eip then .ok (allocate.ip, eip)
  else
    match parseIP allocate.ip with
    | none => scanPool false allocate.key eip eip.status.poolSize.toNat 0
    | some ip =>
      if eip.ipToOrdinal ip < 0 then
        .err (.text ("the specified ip:" ++ allocate.ip ++ " is beyond the range of eip[" ++
          eip.name ++ ":" ++ eip.spec.address ++ "]"))
      else
        scanPool true allocate.key eip (eip.status.poolSize - eip.ipToOrdinal ip).toNat
          (eip.ipToOrdinal ip)

/-! ## Release -/

/-- One visit of the loop of `releaseIPFromEip`.  The inner loop ranges over the
keys listed when the visit began. -/
def releaseEntry (svcInfo : String) (eip : Eip) (addr : String) : Eip :=
  match eip.status.used.get addr with
  | none => eip
  | some svcs =>
    (split ';' svcs).foldl (fun e svc =>
      if svc ≠ svcInfo then e
      else if (split ';' svcs).length = 1 then e.dropEntry addr
      else e.setEntry addr (join ';' (removeString (split ';' svcs) svcInfo))) eip

/-- `Manager.releaseIPFromEip`. -/
def releaseIPFromEip (keys : List String) (svcInfo : String) (eip : Eip) : Eip :=
  if eip.deletionTimestamp then eip else keys.foldl (releaseEntry svcInfo) eip

/-! ## What changes -/

namespace Eip

/-- `e'` is `e` but for what is in use. -/
def SameButUsed (e e' : Eip) : Prop :=
  e' = { e with status := { e.status with
    used := e'.status.used, usage := e'.status.usage, occupied := e'.status.occupied } }

theorem SameButUsed.refl (e : Eip) : SameButUsed e e := rfl

theorem SameButUsed.trans {e e' e'' : Eip} (h : SameButUsed e e') (h' : SameButUsed e' e'') :
    SameButUsed e e'' := by
  unfold SameButUsed at h h' ⊢
  rw [h] at h'
  exact h'

theorem sameButUsed_dropEntry (e : Eip) (addr : String) : SameButUsed e (e.dropEntry addr) := rfl

theorem sameButUsed_setEntry (e : Eip) (addr svcs : String) : SameButUsed e (e.setEntry addr svcs) :=
  rfl

/-- `addr` is the text of an address of the pool. -/
def HasAddr (e : Eip) (addr : String) : Prop :=
  ∃ offset, 0 ≤ offset ∧ offset < e.status.poolSize ∧ e.addrAt offset = some addr

/-- It is the text that `net.IP.String` gives. -/
theorem HasAddr.exists_ip {e : Eip} {addr : String} (h : e.HasAddr addr) :
    ∃ ip, IsAddr ip ∧ addr = ipString ip := by
  obtain ⟨offset, h0, -, hat⟩ := h
  obtain ⟨n, rfl⟩ := Int.eq_ofNat_of_zero_le h0
  rw [addrAt] at hat
  split at hat
  · cases hat
  · rename_i first _
    obtain ⟨ip, hip, rfl⟩ := Option.map_eq_some_iff.mp hat
    rw [incrementIP_natCast] at hip
    split at hip
    · cases hip
      have haddr : IsAddr (beBytes (ipWidth first) (ipToBigInt first + n)) := by
        rw [IsAddr, length_beBytes, ipWidth]
        split
        · exact .inl rfl
        · exact .inr rfl
      exact ⟨_, haddr, rfl⟩
    · cases hip

/-- So it is not empty. -/
theorem HasAddr.ne_empty {e : Eip} {addr : String} (h : e.HasAddr addr) : addr ≠ "" := by
  obtain ⟨ip, haddr, rfl⟩ := h.exists_ip
  have hparse := parseIP_ipString haddr
  intro he
  rw [he, show parseIP "" = none by decide] at hparse
  cases hparse

/-- It is the text of what is read from it. -/
theorem HasAddr.eq_ipString {e : Eip} {addr : String} {x : IP} (h : e.HasAddr addr)
    (hx : parseIP addr = some x) : addr = ipString x := by
  obtain ⟨ip, haddr, rfl⟩ := h.exists_ip
  obtain rfl := Option.some.inj ((parseIP_ipString haddr).symm.trans hx)
  exact (ipString_to16 haddr).symm

theorem listed_of_get {e : Eip} {addr svcs : String} (h : e.status.used.get addr = some svcs) :
    e.listed addr = split ';' svcs := by
  simp [listed, h]

theorem listed_of_get_none {e : Eip} {addr : String} (h : e.status.used.get addr = none) :
    e.listed addr = [] := by
  simp [listed, h]

/-- A service is listed by an entry. -/
theorem exists_get_of_mem_listed {e : Eip} {addr key : String} (h : key ∈ e.listed addr) :
    ∃ svcs, e.status.used.get addr = some svcs ∧ key ∈ split ';' svcs := by
  cases hget : e.status.used.get addr with
  | none =>
    rw [listed_of_get_none hget] at h
    cases h
  | some svcs =>
    rw [listed_of_get hget] at h
    exact ⟨svcs, rfl, h⟩

end Eip

/-! ### By an assignment -/

/-- The ways in which an assignment succeeds: the service has the address it
names already, it gets an address nobody has, or it shares the one it names. -/
inductive Assigned (allocate : SvcRecord) (eip : Eip) : String → Eip → Prop
  | already : allocate.key ∈ eip.listed allocate.ip → Assigned allocate eip allocate.ip eip
  | free {addr : String} : eip.HasAddr addr → eip.status.used.get addr = none →
      Assigned allocate eip addr (eip.addEntry addr allocate.key)
  | shared {addr tmp : String} {ip : IP} : parseIP allocate.ip = some ip → eip.HasAddr addr →
      eip.status.used.get addr = some tmp →
      Assigned allocate eip addr (eip.shareEntry addr tmp allocate.key)

/-- The first loop finds the service if it has the address it names, whatever the
order. -/
theorem alreadyAssigned_iff {keys : List String} {allocate : SvcRecord} {eip : Eip}
    (hkeys : eip.status.used.Ranges keys) :
    alreadyAssigned keys allocate eip = true ↔ allocate.key ∈ eip.listed allocate.ip := by
  constructor
  · intro h
    obtain ⟨a, -, ha⟩ := List.any_eq_true.mp h
    obtain ⟨svc, hsvc, hkey⟩ := List.any_eq_true.mp ha
    obtain ⟨rfl, rfl⟩ := of_decide_eq_true hkey
    exact hsvc
  · intro h
    obtain ⟨svcs, hget, -⟩ := Eip.exists_get_of_mem_listed h
    exact List.any_eq_true.mpr
      ⟨allocate.ip, hkeys.mem hget, List.any_eq_true.mpr ⟨_, h, by simp⟩⟩

section Branches
variable {e : Eip} {keys : List String} {allocate : SvcRecord}

/-- A service that is listed under the text it requests gets that text back. -/
theorem assignIPFromEip_of_mem (hdel : e.deletionTimestamp = false)
    (hdis : e.spec.disable = false) (hkeys : e.status.used.Ranges keys)
    (hmem : allocate.key ∈ e.listed allocate.ip) :
    assignIPFromEip keys allocate e = .ok (allocate.ip, e) := by
  rw [assignIPFromEip, if_neg (by rw [hdel]; decide), if_neg (by rw [hdis]; decide),
    if_pos ((alreadyAssigned_iff hkeys).mpr hmem)]

/-- A text that is no address is as good as none. -/
theorem assignIPFromEip_of_parseIP_none (hdel : e.deletionTimestamp = false)
    (hdis : e.spec.disable = false) (hkeys : e.status.used.Ranges keys)
    (hmem : allocate.key ∉ e.listed allocate.ip) (hparse : parseIP allocate.ip = none) :
    assignIPFromEip keys allocate e =
      scanPool false allocate.key e e.status.poolSize.toNat 0 := by
  rw [assignIPFromEip, if_neg (by rw [hdel]; decide), if_neg (by rw [hdis]; decide),
    if_neg fun ha => hmem ((alreadyAssigned_iff hkeys).mp ha), hparse]

/-- An address is looked for at its position. -/
theorem assignIPFromEip_of_parseIP_some {ip : IP} (hdel : e.deletionTimestamp = false)
    (hdis : e.spec.disable = false) (hkeys : e.status.used.Ranges keys)
    (hmem : allocate.key ∉ e.listed allocate.ip) (hparse : parseIP allocate.ip = some ip) :
    assignIPFromEip keys allocate e =
      if e.ipToOrdinal ip < 0 then
        .err (.text ("the specified ip:" ++ allocate.ip ++ " is beyond the range of eip[" ++
          e.name ++ ":" ++ e.spec.address ++ "]"))
      else
        scanPool true allocate.key e (e.status.poolSize - e.ipToOrdinal ip).toNat
          (e.ipToOrdinal ip) := by
  rw [assignIPFromEip, if_neg (by rw [hdel]; decide), if_neg (by rw [hdis]; decide),
    if_neg fun ha => hmem ((alreadyAssigned_iff hkeys).mp ha), hparse]

end Branches

/-- The second loop stops at the first address it can use. -/
theorem scanPool_ok {named : Bool} {key addr : String} {eip eip' : Eip} {fuel : Nat} {offset : Int}
    (h : scanPool named key eip fuel offset = .ok (addr, eip')) :
    ∃ i, offset ≤ i ∧ i < offset + fuel ∧ eip.addrAt i = some addr ∧
      (eip.status.used.get addr = none ∧ eip' = eip.addEntry addr key ∨
        named ∧ ∃ tmp, eip.status.used.get addr = some tmp ∧
          eip' = eip.shareEntry addr tmp key) := by
  induction fuel generalizing offset with
  | zero => cases h
  | succ fuel ih =>
    rw [scanPool] at h
    cases haddr : eip.addrAt offset with
    | none => rw [haddr] at h; cases h
    | some addr₀ =>
      simp only [haddr] at h
      cases hget : eip.status.used.get addr₀ with
      | none =>
        simp only [hget, Outcome.ok.injEq, Prod.mk.injEq] at h
        obtain ⟨rfl, rfl⟩ := h
        exact ⟨offset, le_refl _, by omega, haddr, .inl ⟨hget, rfl⟩⟩
      | some tmp =>
        simp only [hget] at h
        split at h
        · rename_i hnamed
          simp only [Outcome.ok.injEq, Prod.mk.injEq] at h
          obtain ⟨rfl, rfl⟩ := h
          exact ⟨offset, le_refl _, by omega, haddr, .inr ⟨hnamed, tmp, hget, rfl⟩⟩
        · obtain ⟨i, hle, hlt, hi⟩ := ih h
          exact ⟨i, by omega, by omega, hi⟩

/-- With a named address, it stops where it starts. -/
theorem scanPool_true_ok {key addr : String} {eip eip' : Eip} {fuel : Nat} {offset : Int}
    (h : scanPool true key eip fuel offset = .ok (addr, eip')) :
    eip.addrAt offset = some addr ∧
      (eip.status.used.get addr = none ∧ eip' = eip.addEntry addr key ∨
        ∃ tmp, eip.status.used.get addr = some tmp ∧ eip' = eip.shareEntry addr tmp key) := by
  cases fuel with
  | zero => cases h
  | succ fuel =>
    rw [scanPool] at h
    cases haddr : eip.addrAt offset with
    | none => rw [haddr] at h; cases h
    | some addr₀ =>
      rw [haddr] at h
      dsimp only at h
      cases hget : eip.status.used.get addr₀ with
      | none =>
        rw [hget] at h
        cases h
        exact ⟨rfl, .inl ⟨hget, rfl⟩⟩
      | some tmp =>
        rw [hget] at h
        cases h
        exact ⟨rfl, .inr ⟨tmp, hget, rfl⟩⟩

/-- A successful assignment finds an Eip that is neither deleting nor disabled,
and does one of three things to it. -/
theorem assignIPFromEip_ok {keys : List String} {allocate : SvcRecord} {eip eip' : Eip}
    {addr : String} (h : assignIPFromEip keys allocate eip = .ok (addr, eip')) :
    eip.deletionTimestamp = false ∧ eip.spec.disable = false ∧ Assigned allocate eip addr eip' := by
  unfold assignIPFromEip at h
  split at h
  · cases h
  rename_i hdel
  split at h
  · cases h
  rename_i hdis
  refine ⟨by simpa using hdel, by simpa using hdis, ?_⟩
  split at h
  · -- the service has the address it names
    rename_i halready
    simp only [Outcome.ok.injEq, Prod.mk.injEq] at h
    obtain ⟨rfl, rfl⟩ := h
    obtain ⟨a, -, ha⟩ := List.any_eq_true.mp halready
    obtain ⟨svc, hsvc, hkey⟩ := List.any_eq_true.mp ha
    obtain ⟨rfl, rfl⟩ := of_decide_eq_true hkey
    exact .already hsvc
  · split at h
    · obtain ⟨i, hle, hlt, hi, ⟨hget, rfl⟩ | ⟨hn, -⟩⟩ := scanPool_ok h
      · exact .free ⟨i, hle, by omega, hi⟩ hget
      · cases hn
    · rename_i ip hip
      split at h
      · cases h
      · rename_i hord
        obtain ⟨i, hle, hlt, hi, ⟨hget, rfl⟩ | ⟨-, tmp, hget, rfl⟩⟩ := scanPool_ok h
        · exact .free ⟨i, by omega, by omega, hi⟩ hget
        · exact .shared hip ⟨i, by omega, by omega, hi⟩ hget

namespace Assigned
variable {allocate : SvcRecord} {eip eip' : Eip} {addr : String}

/-- A service that is not listed yet gets an address of the pool. -/
theorem hasAddr (h : Assigned allocate eip addr eip') (hnew : allocate.key ∉ eip.listed allocate.ip) :
    eip.HasAddr addr := by
  cases h with
  | already hmem => exact absurd hmem hnew
  | free haddr _ => exact haddr
  | shared _ haddr _ => exact haddr

theorem sameButUsed (h : Assigned allocate eip addr eip') : eip.SameButUsed eip' := by
  cases h <;> rfl

/-- An assignment leaves the Eip alone, where the service is listed already, or
it puts the key at the end of one list. -/
theorem listed_eq (h : Assigned allocate eip addr eip') (hkey : ';' ∉ allocate.key.toList) :
    (eip' = eip ∧ addr = allocate.ip ∧ allocate.key ∈ eip.listed addr) ∨
      ∀ a, eip'.listed a = if a = addr then eip.listed a ++ [allocate.key] else eip.listed a := by
  cases h with
  | already hmem => exact .inl ⟨rfl, rfl, hmem⟩
  | free _ hget =>
    refine .inr fun a => ?_
    by_cases ha : a = addr
    · subst ha
      simp [Eip.listed, Eip.addEntry, hget, split_of_notMem hkey]
    · simp [Eip.listed, Eip.addEntry, Map.get_set, ha]
  | shared _ _ hget =>
    refine .inr fun a => ?_
    by_cases ha : a = addr
    · subst ha
      simp only [Eip.listed, Eip.shareEntry, Map.get_set_self, hget, if_true]
      exact split_append hkey
    · simp [Eip.listed, Eip.shareEntry, Map.get_set, ha]

/-- After an assignment the service is listed at the address. -/
theorem mem_listed (h : Assigned allocate eip addr eip') (hkey : ';' ∉ allocate.key.toList) :
    allocate.key ∈ eip'.listed addr := by
  rcases h.listed_eq hkey with ⟨rfl, -, hmem⟩ | hl
  · exact hmem
  · rw [hl, if_pos rfl]
    exact List.mem_append_right _ (List.mem_singleton.mpr rfl)

/-- An assignment that changes nothing found the service where it asked to be. -/
theorem of_eq (h : Assigned allocate eip addr eip) (hkey : ';' ∉ allocate.key.toList) :
    addr = allocate.ip ∧ allocate.key ∈ eip.listed addr := by
  rcases h.listed_eq hkey with ⟨-, haddr, hmem⟩ | hl
  · exact ⟨haddr, hmem⟩
  · have hlen := congrArg List.length (hl addr)
    simp at hlen

/-- A service that names no address gets one that nobody has. -/
theorem get_eq_none (h : Assigned allocate eip addr eip') (hip : parseIP allocate.ip = none)
    (hne : eip' ≠ eip) : eip.status.used.get addr = none := by
  cases h with
  | already _ => exact absurd rfl hne
  | free _ hget => exact hget
  | shared hsome _ _ => rw [hip] at hsome; cases hsome

/-- An assignment leaves what is listed of other services. -/
theorem filter_listed (h : Assigned allocate eip addr eip') (hkey : ';' ∉ allocate.key.toList)
    {p : String → Bool} (hp : p allocate.key = false) (a : String) :
    (eip'.listed a).filter p = (eip.listed a).filter p := by
  rcases h.listed_eq hkey with ⟨rfl, -⟩ | hl
  · rfl
  · rw [hl]
    split
    · simp [hp]
    · rfl

theorem count (h : Assigned allocate eip addr eip') (hkey : ';' ∉ allocate.key.toList)
    {key : String} (hne : allocate.key ≠ key) (a : String) :
    (eip'.listed a).count key = (eip.listed a).count key := by
  rw [List.count_eq_length_filter, h.filter_listed hkey (by simpa using hne),
    ← List.count_eq_length_filter]

end Assigned

/-- An assignment changes the Eip unless the service has the address it names. -/
theorem notMem_listed_of_assignIPFromEip {keys : List String} {allocate : SvcRecord} {eip eip' : Eip}
    {addr : String} (hkeys : eip.status.used.Ranges keys)
    (h : assignIPFromEip keys allocate eip = .ok (addr, eip')) (hne : eip' ≠ eip) :
    allocate.key ∉ eip.listed allocate.ip := by
  intro hmem
  unfold assignIPFromEip at h
  rw [if_pos ((alreadyAssigned_iff hkeys).mpr hmem)] at h
  split at h
  · cases h
  split at h
  · cases h
  simp only [Outcome.ok.injEq, Prod.mk.injEq] at h
  exact hne h.2.symm

/-! ### By a release -/

/-- What a release makes of the value of an entry. -/
def releaseValue (svcInfo svcs : String) : Option String :=
  if svcInfo ∈ split ';' svcs then
    if (split ';' svcs).length = 1 then none
    else some (join ';' (removeString (split ';' svcs) svcInfo))
  else some svcs

/-- A loop that acts on every match, and whose action can be repeated, acts once. -/
theorem foldl_match_of_idem {α β : Type} [DecidableEq β] (g : α → α) (hg : ∀ a, g (g a) = g a)
    (k : β) (l : List β) (a : α) :
    l.foldl (fun a x => if x ≠ k then a else g a) a = if k ∈ l then g a else a := by
  induction l generalizing a with
  | nil => simp
  | cons x l ih =>
    rw [List.foldl_cons, ih]
    by_cases hx : x = k
    · subst hx
      simp [hg]
    · simp [hx, Ne.symm hx]

theorem Eip.dropEntry_idem (e : Eip) (addr : String) :
    (e.dropEntry addr).dropEntry addr = e.dropEntry addr := by
  have hm : (e.status.used.delete addr).delete addr = e.status.used.delete addr :=
    Map.delete_of_get_none (Map.get_delete_self ..)
  by_cases hlen : ((e.status.used.delete addr).len : Int) = e.status.poolSize
  · simp [Eip.dropEntry, hm, hlen]
  · simp [Eip.dropEntry, hm, hlen]

theorem Eip.setEntry_idem (e : Eip) (addr v : String) :
    (e.setEntry addr v).setEntry addr v = e.setEntry addr v := by
  have hm : (e.status.used.set addr v).set addr v = e.status.used.set addr v :=
    Map.set_of_get (Map.get_set_self ..)
  simp only [Eip.setEntry, hm]

/-- The inner loop does its work at the first match; the others repeat it. -/
theorem releaseEntry_of_get {svcInfo addr svcs : String} {eip : Eip}
    (hget : eip.status.used.get addr = some svcs) :
    releaseEntry svcInfo eip addr =
      if svcInfo ∈ split ';' svcs then
        if (split ';' svcs).length = 1 then eip.dropEntry addr
        else eip.setEntry addr (join ';' (removeString (split ';' svcs) svcInfo))
      else eip := by
  simp only [releaseEntry, hget]
  by_cases hlen : (split ';' svcs).length = 1
  · simp only [hlen, if_true]
    exact foldl_match_of_idem (fun e : Eip => e.dropEntry addr) (fun e => e.dropEntry_idem addr) ..
  · simp only [hlen, if_false]
    exact foldl_match_of_idem (fun e : Eip => e.setEntry addr _) (fun e => e.setEntry_idem addr _) ..

theorem sameButUsed_releaseEntry (svcInfo : String) (eip : Eip) (addr : String) :
    eip.SameButUsed (releaseEntry svcInfo eip addr) := by
  cases hget : eip.status.used.get addr with
  | none =>
    have h : releaseEntry svcInfo eip addr = eip := by simp [releaseEntry, hget]
    rw [h]
    exact .refl eip
  | some svcs =>
    rw [releaseEntry_of_get hget]
    split
    · split
      · exact eip.sameButUsed_dropEntry addr
      · exact eip.sameButUsed_setEntry addr _
    · exact .refl eip

theorem used_releaseEntry (svcInfo : String) (eip : Eip) (addr : String) :
    (releaseEntry svcInfo eip addr).status.used =
      eip.status.used.visit (fun _ => releaseValue svcInfo) addr := by
  cases hget : eip.status.used.get addr with
  | none => simp [releaseEntry, Map.visit, hget]
  | some svcs =>
    rw [releaseEntry_of_get hget]
    simp only [Map.visit, hget, releaseValue]
    by_cases hmem : svcInfo ∈ split ';' svcs
    · by_cases hlen : (split ';' svcs).length = 1
      · simp [hmem, hlen, Eip.dropEntry]
      · simp [hmem, hlen, Eip.setEntry]
    · simp [hmem, Map.set_of_get hget]

theorem sameButUsed_foldl_releaseEntry (svcInfo : String) (keys : List String) (eip : Eip) :
    eip.SameButUsed (keys.foldl (releaseEntry svcInfo) eip) := by
  induction keys generalizing eip with
  | nil => exact .refl eip
  | cons a keys ih => exact (sameButUsed_releaseEntry svcInfo eip a).trans (ih _)

theorem sameButUsed_releaseIPFromEip (keys : List String) (svcInfo : String) (eip : Eip) :
    eip.SameButUsed (releaseIPFromEip keys svcInfo eip) := by
  unfold releaseIPFromEip
  split
  · exact .refl eip
  · exact sameButUsed_foldl_releaseEntry svcInfo keys eip

theorem used_foldl_releaseEntry (svcInfo : String) (keys : List String) (eip : Eip) :
    (keys.foldl (releaseEntry svcInfo) eip).status.used =
      keys.foldl (Map.visit fun _ => releaseValue svcInfo) eip.status.used := by
  induction keys generalizing eip with
  | nil => rfl
  | cons a keys ih => rw [List.foldl_cons, ih, used_releaseEntry, List.foldl_cons]

/-- **What a release leaves**: every entry, whatever the order of the loop, is
rewritten by `releaseValue`. -/
theorem get_releaseIPFromEip {keys : List String} {eip : Eip} (svcInfo : String)
    (hkeys : eip.status.used.Ranges keys) (hdel : eip.deletionTimestamp = false) (addr : String) :
    (releaseIPFromEip keys svcInfo eip).status.used.get addr =
      (eip.status.used.get addr).bind (releaseValue svcInfo) := by
  unfold releaseIPFromEip
  rw [hdel, if_neg Bool.false_ne_true, used_foldl_releaseEntry, Map.get_rangeUpdate _ hkeys]

/-- A release takes the service out of every list, and leaves the rest as it
was.  A list of which nothing is left is gone, or, where the service was on it
twice, is the list of the empty string. -/
theorem listed_releaseIPFromEip {keys : List String} {eip : Eip} (svcInfo : String)
    (hkeys : eip.status.used.Ranges keys) (hdel : eip.deletionTimestamp = false) (addr : String) :
    (releaseIPFromEip keys svcInfo eip).listed addr = removeString (eip.listed addr) svcInfo ∨
      (releaseIPFromEip keys svcInfo eip).listed addr = [""] ∧
        removeString (eip.listed addr) svcInfo = [] := by
  have hrel := get_releaseIPFromEip svcInfo hkeys hdel addr
  cases hget : eip.status.used.get addr with
  | none =>
    rw [hget, Option.bind_none] at hrel
    rw [Eip.listed_of_get_none hrel, Eip.listed_of_get_none hget]
    exact .inl rfl
  | some svcs =>
    rw [hget, Option.bind_some, releaseValue] at hrel
    rw [Eip.listed_of_get hget]
    split at hrel
    · rename_i hmem
      split at hrel
      · -- the only key of the list
        rename_i hlen
        obtain ⟨x, hx⟩ := List.length_eq_one_iff.mp hlen
        rw [hx, List.mem_singleton] at hmem
        rw [Eip.listed_of_get_none hrel, hx, hmem]
        exact .inl (by simp [removeString])
      · rw [Eip.listed_of_get hrel]
        by_cases hnil : removeString (split ';' svcs) svcInfo = []
        · rw [hnil, split_join_nil]
          exact .inr ⟨rfl, rfl⟩
        · refine .inl (split_join hnil ?_)
          intro x hx
          exact notMem_of_mem_split (mem_removeString.mp hx).1
    · rename_i hmem
      rw [Eip.listed_of_get hrel, removeString_of_notMem hmem]
      exact .inl rfl

/-- After a release the service is listed nowhere. -/
theorem notMem_listed_releaseIPFromEip {keys : List String} {eip : Eip} {svcInfo : String}
    (hsvc : svcInfo ≠ "") (hkeys : eip.status.used.Ranges keys)
    (hdel : eip.deletionTimestamp = false) (addr : String) :
    svcInfo ∉ (releaseIPFromEip keys svcInfo eip).listed addr := by
  rcases listed_releaseIPFromEip svcInfo hkeys hdel addr with h | ⟨h, -⟩
  · rw [h]
    simp
  · rw [h]
    simpa using hsvc

/-- A release leaves what is on the lists besides the service: the part of a list
that `p` selects is the same, if `p` selects neither the service nor the empty
string. -/
theorem filter_listed_releaseIPFromEip {keys : List String} {eip : Eip} {svcInfo : String}
    {p : String → Bool} (hp : p svcInfo = false) (hp' : p "" = false)
    (hkeys : eip.status.used.Ranges keys) (hdel : eip.deletionTimestamp = false) (addr : String) :
    ((releaseIPFromEip keys svcInfo eip).listed addr).filter p = (eip.listed addr).filter p := by
  have hrem : (removeString (eip.listed addr) svcInfo).filter p = (eip.listed addr).filter p := by
    rw [removeString, List.filter_filter]
    refine List.filter_congr fun x _ => ?_
    by_cases hx : x = svcInfo
    · simp [hx, hp]
    · simp [hx]
  rcases listed_releaseIPFromEip svcInfo hkeys hdel addr with h | ⟨h, hnil⟩
  · rw [h, hrem]
  · rw [h, ← hrem, hnil]
    simp [hp']

theorem count_listed_releaseIPFromEip {keys : List String} {eip : Eip} {svcInfo key : String}
    (hne : svcInfo ≠ key) (hkey : key ≠ "") (hkeys : eip.status.used.Ranges keys) (addr : String) :
    ((releaseIPFromEip keys svcInfo eip).listed addr).count key = (eip.listed addr).count key := by
  cases hdel : eip.deletionTimestamp with
  | true => rw [releaseIPFromEip, if_pos hdel]
  | false =>
    have hf := filter_listed_releaseIPFromEip (p := fun x => x == key) (by simpa using hne)
      (by simpa using hkey.symm) hkeys hdel addr
    rw [List.count_eq_length_filter, hf, ← List.count_eq_length_filter]

end OpenELB
