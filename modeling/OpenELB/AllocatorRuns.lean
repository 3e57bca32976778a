import OpenELB.IdAlloc

/-! # Runs of the id allocator

The callers of an allocator hold the ids it has handed out and not got back.  `IdRun`
are the runs of `Allocate`, `AllocateWithHash` and `Free` with the set of ids held kept
beside the bitmap, and `IdSound` is what ties the two together: the bits set are 0 and the
ids held.

For the limits that `New` takes, the sum of the start and the round in `AllocateWithHash`
can wrap around in 32 bits.  The search may then miss a free id, so `Handed` says less
than `Allocated`: an id that is handed out was free, and a call that fails sets no bit. -/
namespace OpenELB
namespace IDAllocator

/-! ## One call -/

/-- What a call may do, whatever it searches: it hands out a free id and marks it, or it
fails and leaves the set as it is. -/
inductive Handed (a : IDAllocator) : Except String Nat × IDAllocator → Prop
  | found {id : Nat} {a' : IDAllocator} : id ∉ a.used → id < a.numIDs →
      a'.used = insert id a.used → a'.maxBlocks = a.maxBlocks → Handed a (.ok id, a')
  | exhausted {a' : IDAllocator} : a'.used = a.used → a'.maxBlocks = a.maxBlocks →
      Handed a (.error errIDsExhausted, a')

theorem Allocated.handed {a : IDAllocator} {start : Nat} {r : Except String Nat × IDAllocator}
    (h : Allocated a start r) : Handed a r := by
  cases h with
  | found hfree hused hmax => exact .found hfree.notMem hfree.lt hused hmax
  | exhausted _ hused hmax => exact .exhausted hused hmax

theorem Probed.handed {a : IDAllocator} {start : Nat} {r : Except String Nat × IDAllocator}
    (h : Probed a start r) : Handed a r := by
  cases h with
  | found _ hfree _ hused hmax => exact .found hfree (Nat.mod_lt _ a.numIDs_pos) hused hmax
  | exhausted _ hused hmax => exact .exhausted hused hmax

/-- The loop of `AllocateWithHash` reads no block that is not there. -/
theorem probe?_eq (start n i : Nat) (a : IDAllocator) :
    probe? start n i a = some (probe start n i a) := by
  induction n generalizing i a with
  | zero => rfl
  | succ n ih =>
    have hlt : uint32 (start + i) % a.numIDs < a.numIDs := Nat.mod_lt _ a.numIDs_pos
    have hblock : uint32 (start + i) % a.numIDs / 64 < a.maxBlocks := by
      rw [numIDs_eq] at hlt ⊢
      omega
    obtain ⟨a', hgrow, -, -, hb⟩ := growTo_spec hblock
      (show a.maxBlocks ≤ a.bits.length + a.maxBlocks by omega)
    have hget : a'.bits[uint32 (start + i) % a.numIDs / 64]? =
        some (a'.block (uint32 (start + i) % a.numIDs / 64)) := by
      rw [block, List.getD_eq_getElem?_getD, List.getElem?_eq_getElem hb, Option.getD_some]
    rw [probe?, probe]
    simp only [hgrow, hget]
    split
    · rfl
    · exact ih (i + 1) a'

/-- **`AllocateWithHash` with any hash and any number of ids.** -/
theorem allocateWithHash?_spec (a : IDAllocator) (hash : List UInt8) :
    ∃ r, a.allocateWithHash? hash = some r ∧ Handed a r :=
  ⟨_, probe?_eq _ _ _ a, (a.allocateWithHash_probed hash).handed⟩

/-- `Free` of an id that is marked finds its block. -/
theorem free?_of_mem {a : IDAllocator} {id : Nat} (h : id ∈ a.used) :
    a.free? id = some (a.free id) := by
  rw [free?, List.getElem?_eq_getElem (a.used_lt h)]

end IDAllocator

open IDAllocator

/-! ## Runs -/

/-- The runs of an allocator for `numIDs` ids, with the ids that are held. -/
inductive IdRun (numIDs : UInt32) : IDAllocator → Set Nat → Prop
  | new {a : IDAllocator} : IDAllocator.new numIDs = some a → IdRun numIDs a ∅
  | allocate {a a' : IDAllocator} {held : Set Nat} {id : Nat} : IdRun numIDs a held →
      a.allocate = some (.ok id, a') → IdRun numIDs a' (insert id held)
  | allocateFails {a a' : IDAllocator} {held : Set Nat} {e : String} : IdRun numIDs a held →
      a.allocate = some (.error e, a') → IdRun numIDs a' held
  | allocateWithHash {a a' : IDAllocator} {held : Set Nat} {id : Nat} (hash : List UInt8) :
      IdRun numIDs a held → a.allocateWithHash? hash = some (.ok id, a') →
      IdRun numIDs a' (insert id held)
  | allocateWithHashFails {a a' : IDAllocator} {held : Set Nat} {e : String} (hash : List UInt8) :
      IdRun numIDs a held → a.allocateWithHash? hash = some (.error e, a') → IdRun numIDs a' held
  | free {a a' : IDAllocator} {held : Set Nat} {id : Nat} : IdRun numIDs a held → id ∈ held →
      a.free? id = some a' → IdRun numIDs a' (held \ {id})

/-- The bitmap and the ids held agree. -/
structure IdSound (numIDs : UInt32) (a : IDAllocator) (held : Set Nat) : Prop where
  limit : a.numIDs = numIDs.toNat
  used : a.used = insert 0 held
  pos : 0 ∉ held
  lt : ∀ id ∈ held, id < numIDs.toNat

namespace IdSound
variable {numIDs : UInt32} {a a' : IDAllocator} {held : Set Nat}

theorem numIDs_of_maxBlocks (h : IdSound numIDs a held) (hmax : a'.maxBlocks = a.maxBlocks) :
    a'.numIDs = numIDs.toNat := by
  rw [numIDs_eq, hmax, ← numIDs_eq, h.limit]

/-- An id that is handed out is not held and is not 0. -/
theorem notMem (h : IdSound numIDs a held) {id : Nat} (hid : id ∉ a.used) :
    id ∉ held ∧ id ≠ 0 := by
  rw [h.used, Set.mem_insert_iff, not_or] at hid
  exact ⟨hid.2, hid.1⟩

theorem found (h : IdSound numIDs a held) {id : Nat} (hr : Handed a (.ok id, a')) :
    IdSound numIDs a' (insert id held) := by
  cases hr with
  | found hfree hlt hused hmax =>
    refine ⟨h.numIDs_of_maxBlocks hmax, ?_, ?_, ?_⟩
    · rw [hused, h.used, Set.insert_comm]
    · rintro (h0 | h0)
      · exact (h.notMem hfree).2 h0.symm
      · exact h.pos h0
    · rintro j (rfl | hj)
      · exact h.limit ▸ hlt
      · exact h.lt j hj

theorem exhausted (h : IdSound numIDs a held) {e : String} (hr : Handed a (.error e, a')) :
    IdSound numIDs a' held := by
  cases hr with
  | exhausted hused hmax => exact ⟨h.numIDs_of_maxBlocks hmax, hused.trans h.used, h.pos, h.lt⟩

theorem mem_used (h : IdSound numIDs a held) {id : Nat} (hid : id ∈ held) : id ∈ a.used :=
  h.used ▸ Set.mem_insert_of_mem 0 hid

theorem free (h : IdSound numIDs a held) {id : Nat} (hid : id ∈ held) :
    IdSound numIDs (a.free id) (held \ {id}) := by
  refine ⟨h.limit, ?_, fun h0 => h.pos h0.1, fun j hj => h.lt j hj.1⟩
  have hne : (0 : Nat) ∉ ({id} : Set Nat) := by
    rw [Set.mem_singleton_iff]
    rintro rfl
    exact h.pos hid
  rw [used_free a (a.used_lt (h.mem_used hid)), h.used, Set.insert_sdiff_of_notMem _ hne]

end IdSound

/-- **A run keeps the bitmap and the ids held together.** -/
theorem IdRun.sound {numIDs : UInt32} {a : IDAllocator} {held : Set Nat}
    (h : IdRun numIDs a held) : IdSound numIDs a held := by
  induction h with
  | new hnew =>
    obtain ⟨hused, hnum⟩ := new_spec hnew
    exact ⟨hnum, by rw [hused, insert_empty_eq], Set.notMem_empty 0,
      fun id hid => absurd hid (Set.notMem_empty id)⟩
  | @allocate a a' held id _ hcall ih =>
    obtain ⟨r, hr, hspec⟩ := a.allocate_spec
    cases hr.symm.trans hcall
    exact ih.found hspec.handed
  | @allocateFails a a' held e _ hcall ih =>
    obtain ⟨r, hr, hspec⟩ := a.allocate_spec
    cases hr.symm.trans hcall
    exact ih.exhausted hspec.handed
  | @allocateWithHash a a' held id hash _ hcall ih =>
    obtain ⟨r, hr, hspec⟩ := a.allocateWithHash?_spec hash
    cases hr.symm.trans hcall
    exact ih.found hspec
  | @allocateWithHashFails a a' held e hash _ hcall ih =>
    obtain ⟨r, hr, hspec⟩ := a.allocateWithHash?_spec hash
    cases hr.symm.trans hcall
    exact ih.exhausted hspec
  | @free a a' held id _ hid hcall ih =>
    cases (free?_of_mem (ih.mem_used hid)).symm.trans hcall
    exact ih.free hid

/-- What the allocator promises for one call, in a state in which `held` are held: an id it
returns is new, is not 0 and is below the limit, and an error is that ids are exhausted and
changes no bit. -/
def SafeResult (numIDs : UInt32) (a : IDAllocator) (held : Set Nat) :
    Except String Nat × IDAllocator → Prop
  | (.ok id, _) => id ∉ held ∧ id ≠ 0 ∧ id < numIDs.toNat
  | (.error e, a') => e = errIDsExhausted ∧ a'.used = a.used

theorem IdSound.safeResult {numIDs : UInt32} {a : IDAllocator} {held : Set Nat}
    (h : IdSound numIDs a held) {r : Except String Nat × IDAllocator} (hr : Handed a r) :
    SafeResult numIDs a held r := by
  cases hr with
  | found hfree hlt _ _ =>
    obtain ⟨hheld, h0⟩ := h.notMem hfree
    exact ⟨hheld, h0, h.limit ▸ hlt⟩
  | exhausted hused _ => exact ⟨rfl, hused⟩

/-- **The id allocator is safe.**  In every state of a run of calls, for every limit that
`New` takes, the bits set are exactly 0 and the ids held, the bitmap has at most
`maxBlocks` blocks, and every call that can come next returns without an index out of
range: `Allocate` and `AllocateWithHash` keep their promise, and an id that is held can
be freed. -/
theorem allocator_safe {numIDs : UInt32} {a : IDAllocator} {held : Set Nat}
    (h : IdRun numIDs a held) :
    a.used = insert 0 held ∧ a.bits.length ≤ a.maxBlocks ∧ a.maxBlocks * 64 = numIDs.toNat ∧
      (∃ r, a.allocate = some r ∧ SafeResult numIDs a held r) ∧
      (∀ hash, ∃ r, a.allocateWithHash? hash = some r ∧ SafeResult numIDs a held r) ∧
      ∀ id ∈ held, ∃ a', a.free? id = some a' := by
  have hs := h.sound
  refine ⟨hs.used, a.bits_le, by rw [← numIDs_eq, hs.limit], ?_, fun hash => ?_, fun id hid => ?_⟩
  · obtain ⟨r, hr, hspec⟩ := a.allocate_spec
    exact ⟨r, hr, hs.safeResult hspec.handed⟩
  · obtain ⟨r, hr, hspec⟩ := a.allocateWithHash?_spec hash
    exact ⟨r, hr, hs.safeResult hspec⟩
  · exact ⟨_, free?_of_mem (hs.mem_used hid)⟩

theorem allocator_safe_oneHeld :
    ∃ a, IdRun 64 a {1} ∧ a.used = insert 0 {1} ∧
      ∃ r, a.allocate = some r ∧ SafeResult 64 a {1} r := by
  obtain ⟨a₀, hnew⟩ := Option.isSome_iff_exists.mp (show (IDAllocator.new 64).isSome by decide)
  have hfirst : (IDAllocator.new 64).map (fun a => a.allocate.map Prod.fst) =
      some (some (.ok 1)) := by decide +kernel
  rw [hnew, Option.map_some, Option.some.injEq] at hfirst
  obtain ⟨⟨_, a⟩, hcall, rfl⟩ := Option.map_eq_some_iff.mp hfirst
  have hrun : IdRun 64 a {1} := by
    have hstep := (IdRun.new hnew).allocate hcall
    rwa [insert_empty_eq] at hstep
  obtain ⟨hused, -, -, hnext, -, -⟩ := allocator_safe hrun
  exact ⟨a, hrun, hused, hnext⟩

end OpenELB
