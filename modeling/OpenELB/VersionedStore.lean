import OpenELB.GoMap

/-! # A store with optimistic concurrency

Objects are stored under the key they carry, and every stored state of an object
is a version with a number of its own.  A client sends back the number of the
version it has read, and its write goes through only if that is the number of
the version stored now.

`VStore` keeps, besides the objects, every version that was ever stored, because
a client that reads through a cache may be answered with an old one.  Its fields
say that numbers are never reused, so that a number names a version; that is all
optimistic concurrency rests on: a version read at any time, whose number is the
stored one, *is* the stored one (`VStore.eq_of_rv`).  Nothing outside this module
can build a store in which it fails.

`Reads`, `ReadsAll` and `Writes` are the operations a client has.  `Faults` says
what it must be ready for: stale reads, reads that fail, writes that fail.  A
write that fails may have been carried out, the answer being lost.  `Writes.cases`
is what proofs about clients use: a write leaves the store alone, or it found the
version the client read and changed that object and nothing else. -/

/-- A stored state of an object and its number. -/
structure Version (α : Type) where
  rv : Nat
  obj : α
  deriving DecidableEq

variable {κ α : Type} [DecidableEq κ]

/-- A store of objects under the keys they carry. -/
structure VStore (key : α → κ) where
  /-- The objects stored now. -/
  cur : Go.Map κ (Version α)
  /-- Every version ever stored, the last one first. -/
  log : List (Version α)
  /-- The number of the next version. -/
  next : Nat
  cur_key : ∀ k v, cur.get k = some v → key v.obj = k
  cur_log : ∀ k v, cur.get k = some v → v ∈ log
  log_lt : ∀ v ∈ log, v.rv < next
  log_inj : ∀ v ∈ log, ∀ w ∈ log, v.rv = w.rv → v = w

namespace VStore
variable {key : α → κ}

/-- The store with nothing in it. -/
def empty : VStore key where
  cur := Go.Map.empty
  log := []
  next := 1
  cur_key := by intro k v h; rw [Go.Map.get_empty] at h; cases h
  cur_log := by intro k v h; rw [Go.Map.get_empty] at h; cases h
  log_lt := by intro v h; cases h
  log_inj := by intro v h; cases h

/-- The version stored under a key. -/
def get (s : VStore key) (k : κ) : Option (Version α) := s.cur.get k

/-- A version with the next number is none of those stored so far. -/
theorem log_inj_cons (s : VStore key) (a : α) : ∀ v ∈ ⟨s.next, a⟩ :: s.log,
    ∀ w ∈ ⟨s.next, a⟩ :: s.log, v.rv = w.rv → v = w := by
  intro v hv w hw he
  rcases List.mem_cons.mp hv with rfl | hv <;> rcases List.mem_cons.mp hw with rfl | hw
  · rfl
  · have hlt := s.log_lt w hw
    simp only at he
    omega
  · have hlt := s.log_lt v hv
    simp only at he
    omega
  · exact s.log_inj v hv w hw he

/-- Store a new version of an object. -/
def put (s : VStore key) (a : α) : VStore key where
  cur := s.cur.set (key a) ⟨s.next, a⟩
  log := ⟨s.next, a⟩ :: s.log
  next := s.next + 1
  cur_key := by
    intro k v h
    rw [Go.Map.get_set] at h
    split at h
    · rename_i hk; cases h; exact hk.symm
    · exact s.cur_key k v h
  cur_log := by
    intro k v h
    rw [Go.Map.get_set] at h
    split at h
    · cases h; exact List.mem_cons_self
    · exact List.mem_cons_of_mem _ (s.cur_log k v h)
  log_lt := by
    intro v hv
    rcases List.mem_cons.mp hv with rfl | hv
    · exact Nat.lt_succ_self _
    · exact Nat.lt_succ_of_lt (s.log_lt v hv)
  log_inj := s.log_inj_cons a

/-- Remove the object under a key. -/
def remove (s : VStore key) (k : κ) : VStore key where
  cur := s.cur.delete k
  log := s.log
  next := s.next
  cur_key := by
    intro k' v h
    rw [Go.Map.get_delete] at h
    split at h
    · cases h
    · exact s.cur_key k' v h
  cur_log := by
    intro k' v h
    rw [Go.Map.get_delete] at h
    split at h
    · cases h
    · exact s.cur_log k' v h
  log_lt := s.log_lt
  log_inj := s.log_inj

theorem get_put (s : VStore key) (a : α) (k : κ) :
    (s.put a).get k = if k = key a then some ⟨s.next, a⟩ else s.get k :=
  Go.Map.get_set ..

@[simp] theorem get_put_self (s : VStore key) (a : α) :
    (s.put a).get (key a) = some ⟨s.next, a⟩ := by
  simp [get_put]

/-- What is stored after a list of objects was put into the store was there or is one of
them. -/
theorem mem_of_get_puts {s : VStore key} {l : List α} {k : κ} {v : Version α}
    (h : (l.foldl put s).get k = some v) : s.get k = some v ∨ v.obj ∈ l := by
  induction l generalizing s with
  | nil => exact .inl h
  | cons a l ih =>
    rcases ih h with hget | hmem
    · rw [get_put] at hget
      split at hget
      · cases hget
        exact .inr List.mem_cons_self
      · exact .inl hget
    · exact .inr (List.mem_cons_of_mem _ hmem)

theorem get_remove (s : VStore key) (k k' : κ) :
    (s.remove k).get k' = if k' = k then none else s.get k' :=
  Go.Map.get_delete ..

@[simp] theorem get_remove_self (s : VStore key) (k : κ) : (s.remove k).get k = none := by
  simp [get_remove]

@[simp] theorem get_empty (k : κ) : (empty : VStore key).get k = none := Go.Map.get_empty k

theorem key_of_get {s : VStore key} {k : κ} {v : Version α} (h : s.get k = some v) :
    key v.obj = k := s.cur_key k v h

theorem mem_log {s : VStore key} {k : κ} {v : Version α} (h : s.get k = some v) : v ∈ s.log :=
  s.cur_log k v h

/-- **A number names a version**: a version stored at any time, with the number of
the one stored now, is the one stored now. -/
theorem eq_of_rv {s : VStore key} {k : κ} {v w : Version α} (hv : v ∈ s.log)
    (hw : s.get k = some w) (he : w.rv = v.rv) : w = v :=
  s.log_inj w (mem_log hw) v hv he

/-! ## Histories -/

/-- `t` is a later state of `s`: every version of `s` is a version of `t`. -/
def Later (s t : VStore key) : Prop := ∀ v ∈ s.log, v ∈ t.log

theorem Later.refl (s : VStore key) : Later s s := fun _ h => h

theorem Later.trans {s t u : VStore key} (h : Later s t) (h' : Later t u) : Later s u :=
  fun v hv => h' v (h v hv)

theorem later_put (s : VStore key) (a : α) : Later s (s.put a) :=
  fun _ h => List.mem_cons_of_mem _ h

theorem later_remove (s : VStore key) (k : κ) : Later s (s.remove k) := fun _ h => h

/-- Change the object under a key without a condition; `none` removes it. -/
def modify (s : VStore key) (k : κ) (change : α → Option α) : VStore key :=
  match s.get k with
  | none => s
  | some v =>
    match change v.obj with
    | none => s.remove k
    | some a => s.put a

theorem later_modify (s : VStore key) (k : κ) (change : α → Option α) :
    Later s (s.modify k change) := by
  rw [modify]
  split
  · exact Later.refl s
  · split
    · exact later_remove s k
    · exact later_put s _

theorem obj_modify {s : VStore key} {k : κ} {change : α → Option α}
    (hkey : ∀ a b, change a = some b → key b = key a) :
    ((s.modify k change).get k).map Version.obj = ((s.get k).map Version.obj).bind change := by
  rw [modify]
  cases hg : s.get k with
  | none => simp [hg]
  | some v =>
    cases hc : change v.obj with
    | none => simp [hc]
    | some a =>
      have hka : key a = k := (hkey _ _ hc).trans (key_of_get hg)
      subst hka
      simp [hc]

theorem get_modify_ne {s : VStore key} {k k' : κ} {change : α → Option α}
    (hkey : ∀ a b, change a = some b → key b = key a) (hne : k' ≠ k) :
    (s.modify k change).get k' = s.get k' := by
  rw [modify]
  cases hg : s.get k with
  | none => rfl
  | some v =>
    cases hc : change v.obj with
    | none => simp [hc, get_remove, hne]
    | some a =>
      have hka : key a = k := (hkey _ _ hc).trans (key_of_get hg)
      simp [hc, get_put, hka, hne]

/-! ## Listing -/

/-- `l` is a listing of the stored objects, in some order. -/
def Lists (s : VStore key) (l : List (Version α)) : Prop :=
  ∃ ks, s.cur.Ranges ks ∧ l = ks.filterMap s.cur.get

theorem Lists.mem_iff {s : VStore key} {l : List (Version α)} (h : s.Lists l) {v : Version α} :
    v ∈ l ↔ s.get (key v.obj) = some v := by
  obtain ⟨ks, hks, rfl⟩ := h
  rw [List.mem_filterMap]
  constructor
  · rintro ⟨k, -, hk⟩
    rwa [key_of_get hk]
  · intro hv
    exact ⟨key v.obj, hks.mem hv, hv⟩

theorem exists_lists (s : VStore key) : ∃ l, s.Lists l := by
  obtain ⟨ks, hks⟩ := s.cur.exists_ranges
  exact ⟨_, ks, hks, rfl⟩

/-- Any object may be listed first. -/
theorem exists_lists_cons {s : VStore key} {k : κ} {v : Version α} (hv : s.get k = some v) :
    ∃ l, s.Lists (v :: l) := by
  have hsome : (s.cur.get k).isSome := Option.isSome_of_eq_some hv
  obtain ⟨ks, hks⟩ := Go.Map.exists_ranges_cons hsome
  exact ⟨ks.filterMap s.cur.get, k :: ks, hks, (List.filterMap_cons_some (f := s.cur.get) hv).symm⟩

/-! ## The operations of a client -/

end VStore

/-- What an operation can fail with. -/
inductive ApiErr where
  | notFound
  | conflict
  | other (msg : String)
  deriving DecidableEq

/-- What a client has to be ready for. -/
structure Faults where
  /-- A read may be answered with an old version. -/
  stale : Bool := false
  /-- A read may fail. -/
  readFail : Bool := false
  /-- A write may fail, whether carried out or not. -/
  writeFail : Bool := false
  deriving DecidableEq

namespace VStore
variable {key : α → κ} {f : Faults} {s s' : VStore key} {k : κ} {v w : Version α}

/-- What a read of one object may answer. -/
def Reads (f : Faults) (s : VStore key) (k : κ) : Except ApiErr (Version α) → Prop
  | .ok v => if f.stale then v ∈ s.log ∧ key v.obj = k else s.get k = some v
  | .error .notFound => s.get k = none ∨ f.stale
  | .error _ => f.readFail

/-- What a read of all objects may answer. -/
def ReadsAll (f : Faults) (s : VStore key) : Except ApiErr (List (Version α)) → Prop
  | .ok l => if f.stale then ∀ v ∈ l, v ∈ s.log else s.Lists l
  | .error _ => f.readFail

variable [DecidableEq α]

/-- A conditional write.  The new object is made from the stored one (`none`: the
object goes away), and only if its number is that of the version sent.  A write
that changes nothing does not store a new version. -/
def write (s : VStore key) (v : Version α) (change : α → Option α) :
    Except ApiErr (Version α) × VStore key :=
  match s.get (key v.obj) with
  | none => (.error .notFound, s)
  | some w =>
    if w.rv ≠ v.rv then (.error .conflict, s)
    else
      match change w.obj with
      | none => (.ok w, s.remove (key v.obj))
      | some a => if a = w.obj then (.ok w, s) else (.ok ⟨s.next, a⟩, s.put a)

/-- What a conditional write may answer and do. -/
def Writes (f : Faults) (s : VStore key) (v : Version α) (change : α → Option α)
    (r : Except ApiErr (Version α)) (s' : VStore key) : Prop :=
  (r, s') = s.write v change ∨
    f.writeFail ∧ ∃ e, r = .error e ∧ (s' = s ∨ s' = (s.write v change).2)

omit [DecidableEq α] in
theorem Reads.mem_log (h : Reads f s k (.ok v)) : v ∈ s.log ∧ key v.obj = k := by
  simp only [Reads] at h
  split at h
  · exact h
  · exact ⟨VStore.mem_log h, key_of_get h⟩

omit [DecidableEq α] in
theorem Reads.get (hf : f.stale = false) (h : Reads f s k (.ok v)) : s.get k = some v := by
  simpa [Reads, hf] using h

omit [DecidableEq α] in
theorem Reads.get_none (hf : f.stale = false) (h : Reads f s k (.error .notFound)) :
    s.get k = none := by
  simpa [Reads, hf] using h

omit [DecidableEq α] in
theorem ReadsAll.lists (hf : f.stale = false) {l : List (Version α)} (h : ReadsAll f s (.ok l)) :
    s.Lists l := by
  simpa [ReadsAll, hf] using h

/-- The write was carried out: it found the version with the number sent, stored
under the same key, and replaced that object, and nothing else. -/
structure Applied (s : VStore key) (v : Version α) (change : α → Option α) (w : Version α)
    (s' : VStore key) : Prop where
  found : s.get (key v.obj) = some w
  rv : w.rv = v.rv
  obj : (s'.get (key v.obj)).map Version.obj = change w.obj
  frame : ∀ k, k ≠ key v.obj → s'.get k = s.get k

variable {change : α → Option α} {r : Except ApiErr (Version α)}

theorem write_cases (hkey : ∀ a b, change a = some b → key b = key a) :
    (s.write v change).2 = s ∧ (∃ e, (s.write v change).1 = .error e) ∨
      ∃ w v', Applied s v change w (s.write v change).2 ∧ (s.write v change).1 = .ok v' ∧
        ∀ a, change w.obj = some a → (s.write v change).2.get (key v.obj) = some v' ∧ v'.obj = a := by
  rw [write]
  cases hg : s.get (key v.obj) with
  | none => exact .inl ⟨rfl, _, rfl⟩
  | some w =>
    by_cases hrv : w.rv = v.rv
    · simp only [hrv, ne_eq, not_true_eq_false, if_false]
      cases hc : change w.obj with
      | none =>
        refine .inr ⟨w, w, ⟨hg, hrv, by simp [hc], ?_⟩, rfl, ?_⟩
        · intro k hk
          simp [get_remove, hk]
        · intro a ha
          rw [hc] at ha
          cases ha
      | some a =>
        have hka : key a = key v.obj := (hkey _ _ hc).trans (key_of_get hg)
        by_cases haw : a = w.obj
        · simp only [haw, if_true]
          refine .inr ⟨w, w, ⟨hg, hrv, by rw [hg, hc, haw]; rfl, fun _ _ => rfl⟩, rfl, ?_⟩
          intro b hb
          rw [hc] at hb
          cases hb
          exact ⟨hg, haw.symm⟩
        · simp only [haw, if_false]
          refine .inr ⟨w, ⟨s.next, a⟩, ⟨hg, hrv, by simp [hc, ← hka], ?_⟩, rfl, ?_⟩
          · intro k hk
            rw [get_put, if_neg (by rwa [hka])]
          · intro b hb
            rw [hc] at hb
            cases hb
            exact ⟨by rw [← hka, get_put_self], rfl⟩
    · simp only [if_pos hrv]
      exact .inl ⟨trivial, _, rfl⟩

/-- **What a write can do**: fail and change nothing, or be carried out.  If it
answers with a version, it was carried out, and that version is stored. -/
theorem Writes.cases (hkey : ∀ a b, change a = some b → key b = key a)
    (h : Writes f s v change r s') :
    s' = s ∧ (∃ e, r = .error e) ∨
      ∃ w, Applied s v change w s' ∧ ∀ v', r = .ok v' →
        ∀ a, change w.obj = some a → s'.get (key v.obj) = some v' ∧ v'.obj = a := by
  obtain hw | ⟨-, e, rfl, rfl | rfl⟩ := h
  · rw [Prod.ext_iff] at hw
    obtain ⟨rfl, rfl⟩ := hw
    rcases write_cases (s := s) (v := v) hkey with h | ⟨w, v', ha, hr, hv⟩
    · exact .inl h
    · refine .inr ⟨w, ha, ?_⟩
      intro v'' hv''
      rw [hr] at hv''
      cases hv''
      exact hv
  · exact .inl ⟨rfl, e, rfl⟩
  · rcases write_cases (s := s) (v := v) hkey with h | ⟨w, v', ha, hr, hv⟩
    · exact .inl ⟨h.1, e, rfl⟩
    · exact .inr ⟨w, ha, fun v'' hv'' => by cases hv''⟩

theorem later_write : Later s (s.write v change).2 := by
  rw [write]
  split
  · exact Later.refl s
  · split
    · exact Later.refl s
    · split
      · exact later_remove s _
      · split
        · exact Later.refl s
        · exact later_put s _

/-- A write forgets no version. -/
theorem Writes.later (h : Writes f s v change r s') : Later s s' := by
  obtain hw | ⟨-, e, rfl, rfl | rfl⟩ := h
  · rw [Prod.ext_iff] at hw
    obtain ⟨-, rfl⟩ := hw
    exact later_write
  · exact Later.refl _
  · exact later_write

theorem mem_log_write {v' : Version α} (h : (s.write v change).1 = .ok v') :
    v' ∈ (s.write v change).2.log := by
  rw [write] at h ⊢
  cases hg : s.get (key v.obj) with
  | none => simp [hg] at h
  | some w =>
    have hw := VStore.mem_log hg
    by_cases hrv : w.rv = v.rv
    · simp only [hg, hrv, ne_eq, not_true_eq_false, if_false] at h ⊢
      cases hc : change w.obj with
      | none =>
        simp only [hc, Except.ok.injEq] at h
        exact h ▸ hw
      | some a =>
        by_cases haw : a = w.obj
        · simp only [hc, haw, if_true, Except.ok.injEq] at h ⊢
          exact h ▸ hw
        · simp only [hc, haw, if_false, Except.ok.injEq] at h ⊢
          exact h ▸ List.mem_cons_self
    · simp [hg, hrv] at h

/-- The version a write answers with is one that was stored. -/
theorem Writes.mem_log {v' : Version α} (h : Writes f s v change (.ok v') s') : v' ∈ s'.log := by
  obtain hw | ⟨-, e, he, -⟩ := h
  · rw [Prod.ext_iff] at hw
    obtain ⟨hr, rfl⟩ := hw
    exact mem_log_write hr.symm
  · cases he

/-- The version a write answers with has the key that was written to. -/
theorem Writes.key_eq (hkey : ∀ a b, change a = some b → key b = key a) {v' : Version α}
    (h : Writes f s v change (.ok v') s') : key v'.obj = key v.obj := by
  obtain hw | ⟨-, e, he, -⟩ := h
  · have hr : (s.write v change).1 = .ok v' := (congrArg Prod.fst hw).symm
    rw [write] at hr
    cases hg : s.get (key v.obj) with
    | none => simp [hg] at hr
    | some w =>
      have hwkey := key_of_get hg
      by_cases hrv : w.rv = v.rv
      · simp only [hg, hrv, ne_eq, not_true_eq_false, if_false] at hr
        cases hc : change w.obj with
        | none =>
          simp only [hc, Except.ok.injEq] at hr
          exact hr ▸ hwkey
        | some a =>
          by_cases haw : a = w.obj
          · simp only [hc, haw, if_true, Except.ok.injEq] at hr
            exact hr ▸ hwkey
          · simp only [hc, haw, if_false, Except.ok.injEq] at hr
            rw [← hr]
            exact (hkey _ _ hc).trans hwkey
      · simp [hg, hrv] at hr
  · cases he

omit [DecidableEq α] in
/-- **Optimistic concurrency**: if the client sends back the number of a version
it has read, what the write found is that version. -/
theorem Applied.eq_read {v₀ : Version α} (h : Applied s v change w s') (hv₀ : v₀ ∈ s.log)
    (hrv : v.rv = v₀.rv) : w = v₀ :=
  eq_of_rv hv₀ h.found (h.rv.trans hrv)

end VStore
