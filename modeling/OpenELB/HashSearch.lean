import OpenELB.AllocatorRuns
import Mathlib.Order.Bounds.Basic
import Mathlib.Order.Interval.Set.Basic

/-! # What `AllocateWithHash` finds

`Allocate` goes through the blocks from the lowest, so it finds the lowest free id and fails
only if all ids are used.  `AllocateWithHash` is to find the first free id in the circle from
the start that the hash gives.  The sum of the start and the round is a `uint32`.  If `New`
was asked for more than `2 ^ 31` ids, the sum can wrap around: the rounds after that look at
the ids from 0 on again, and some ids just before the start are not looked at
(`Probing.Skipped`).  An id that is found is still the first free one.  When the free ids are
all skipped, the call fails although there are some.

`hash_search_iff` says exactly when the answer is right, in every state of a run.  A run that
takes all ids in order and gives one back (`exists_idRun_upTo`) reaches a state with one free
id, and the id can be one that is skipped. -/
namespace OpenELB
open Go
open Probing (FirstFree Skipped wrapped exists_wrapped_iff not_skipped)
open IDAllocator

/-! ## Answers -/

/-- All ids of an allocator for `numIDs` ids are used. -/
def AllUsed (numIDs : UInt32) (a : IDAllocator) : Prop := ∀ id < numIDs.toNat, id ∈ a.used

/-- The answer of a call that is to fail with `ErrIDsExhausted` if `full`, and to return an
id that is `first` otherwise. -/
def Answers (full : Prop) (first : Nat → Prop) : Except String Nat × IDAllocator → Prop
  | (.ok id, _) => ¬ full ∧ first id
  | (.error e, _) => e = errIDsExhausted ∧ full

/-- Where the search for a hash starts: its first four bytes, modulo the number of ids. -/
def hashStart (numIDs : UInt32) (hash : List UInt8) : Nat := beNat (hash.take 4) % numIDs.toNat

theorem isLeast_of_firstFree {U : Set Nat} {n id : Nat} (h : FirstFree U n 0 id) :
    IsLeast {id | id < n ∧ id ∉ U} id := by
  refine ⟨⟨h.lt, h.notMem⟩, fun j hj => ?_⟩
  obtain ⟨i, hi, rfl, -, hbefore⟩ := h
  rw [Nat.zero_add, Nat.mod_eq_of_lt hi]
  by_contra hlt
  have hused := hbefore j (by omega)
  rw [Nat.zero_add, Nat.mod_eq_of_lt hj.1] at hused
  exact hj.2 hused

namespace IDAllocator
variable {a : IDAllocator} {start : Nat} {r : Except String Nat × IDAllocator}

theorem Allocated.answers (h : Allocated a start r) :
    Answers (∀ id < a.numIDs, id ∈ a.used) (FirstFree a.used a.numIDs start) r := by
  cases h with
  | found hfree _ _ => exact ⟨fun hall => hfree.notMem (hall _ hfree.lt), hfree⟩
  | exhausted hall _ _ => exact ⟨rfl, hall⟩

/-- If all free ids are skipped, no round comes to one. -/
theorem Probed.exhausted_of_skipped (h : Probed a start r) (hstart : start < a.numIDs)
    (hskip : ∀ id < a.numIDs, id ∉ a.used → Skipped (2 ^ 32) a.numIDs start id) :
    r.1 = .error errIDsExhausted := by
  cases h with
  | @found i _ hi hfree _ _ _ =>
    have hlt : wrapped (2 ^ 32) a.numIDs start i < a.numIDs := Nat.mod_lt _ a.numIDs_pos
    exact absurd (hskip _ hlt hfree)
      ((exists_wrapped_iff a.numIDs_le hstart hlt).mp ⟨_, hi, rfl⟩)
  | exhausted _ _ _ => rfl

/-- The answer of `AllocateWithHash` is right unless there are free ids and all of them are
skipped. -/
theorem Probed.answers_iff (h : Probed a start r) (hstart : start < a.numIDs) :
    Answers (∀ id < a.numIDs, id ∈ a.used) (FirstFree a.used a.numIDs start) r ↔
      (∀ id < a.numIDs, id ∈ a.used) ∨
        ∃ id < a.numIDs, id ∉ a.used ∧ ¬ Skipped (2 ^ 32) a.numIDs start id := by
  constructor
  · intro hright
    by_contra hnot
    rw [not_or] at hnot
    have hskip : ∀ id < a.numIDs, id ∉ a.used → Skipped (2 ^ 32) a.numIDs start id :=
      fun id hid hfree => by_contra fun hseen => hnot.2 ⟨id, hid, hfree, hseen⟩
    have hfails := h.exhausted_of_skipped hstart hskip
    obtain ⟨res, a'⟩ := r
    obtain rfl : res = .error errIDsExhausted := hfails
    exact hnot.1 hright.2
  · intro hcond
    refine (h.allocated hstart fun hskip => ?_).answers
    rcases hcond with hall | ⟨id, hid, hfree, hseen⟩
    · exact hall
    · exact absurd (hskip id hid hfree) hseen

end IDAllocator

/-! ## In every run -/

/-- **What the allocator finds**, in every state of a run, for every limit that `New` takes.
`Allocate` fails exactly if all ids are used and returns the lowest free one otherwise.  The
answer of `AllocateWithHash` is right exactly if all ids are used or one of the free ones is
not skipped; for up to `2 ^ 31` ids it always is. -/
theorem hash_search_iff {numIDs : UInt32} {a : IDAllocator} {held : Set Nat}
    (h : IdRun numIDs a held) :
    (∃ r, a.allocate = some r ∧
      Answers (AllUsed numIDs a) (IsLeast {id | id < numIDs.toNat ∧ id ∉ a.used}) r) ∧
    (∀ hash, (∃ r, a.allocateWithHash? hash = some r ∧ Answers (AllUsed numIDs a)
        (FirstFree a.used numIDs.toNat (hashStart numIDs hash)) r) ↔
      AllUsed numIDs a ∨ ∃ id < numIDs.toNat, id ∉ a.used ∧
        ¬ Skipped (2 ^ 32) numIDs.toNat (hashStart numIDs hash) id) ∧
    (numIDs.toNat ≤ 2 ^ 31 → ∀ hash, ∃ r, a.allocateWithHash? hash = some r ∧
      Answers (AllUsed numIDs a) (FirstFree a.used numIDs.toNat (hashStart numIDs hash)) r) := by
  have hlimit := h.sound.limit
  have hiff : ∀ hash, (∃ r, a.allocateWithHash? hash = some r ∧ Answers (AllUsed numIDs a)
        (FirstFree a.used numIDs.toNat (hashStart numIDs hash)) r) ↔
      AllUsed numIDs a ∨ ∃ id < numIDs.toNat, id ∉ a.used ∧
        ¬ Skipped (2 ^ 32) numIDs.toNat (hashStart numIDs hash) id := by
    intro hash
    have hcall : a.allocateWithHash? hash = some (a.allocateWithHash hash) := probe?_eq _ _ _ a
    have hright := (a.allocateWithHash_probed hash).answers_iff (a.initialID_lt hash)
    unfold AllUsed hashStart
    rw [← hlimit]
    refine Iff.trans ⟨?_, fun hr => ⟨_, hcall, hr⟩⟩ hright
    rintro ⟨r, hr, hans⟩
    obtain rfl := Option.some.inj (hcall.symm.trans hr)
    exact hans
  refine ⟨?_, hiff, fun hsmall hash => (hiff hash).mpr ?_⟩
  · obtain ⟨r, hr, hspec⟩ := a.allocate_spec
    have hans := hspec.answers
    rw [hlimit] at hans
    obtain ⟨res | id, a'⟩ := r
    · exact ⟨_, hr, hans⟩
    · exact ⟨_, hr, hans.1, isLeast_of_firstFree hans.2⟩
  · by_cases hall : AllUsed numIDs a
    · exact .inl hall
    · unfold AllUsed at hall
      push Not at hall
      obtain ⟨id, hid, hfree⟩ := hall
      exact .inr ⟨id, hid, hfree, not_skipped (by omega) (Nat.mod_lt _ (by omega))⟩

/-! ## A full allocator -/

/-- **Taking ids in order.**  A run can hold the ids from 1 to any `m` below the limit. -/
theorem exists_idRun_upTo {numIDs : UInt32} {m : Nat} (hnew : (IDAllocator.new numIDs).isSome)
    (hm : m < numIDs.toNat) : ∃ a, IdRun numIDs a (Set.Icc 1 m) := by
  induction m with
  | zero =>
    obtain ⟨a, ha⟩ := Option.isSome_iff_exists.mp hnew
    exact ⟨a, (Set.Icc_eq_empty (by decide) : Set.Icc 1 0 = (∅ : Set Nat)) ▸ .new ha⟩
  | succ m ih =>
    obtain ⟨a, hrun⟩ := ih (by omega)
    have hs := hrun.sound
    have hmem : ∀ id, id ∈ a.used ↔ id ≤ m := by
      intro id
      rw [hs.used, Set.mem_insert_iff, Set.mem_Icc]
      omega
    obtain ⟨r, hcall, hspec⟩ := a.allocate_spec
    cases hspec with
    | found hfree _ _ =>
      obtain ⟨⟨hlt, hnot⟩, hleast⟩ := isLeast_of_firstFree hfree
      have hge := fun hle => hnot ((hmem _).mpr hle)
      have hle := hleast ⟨hs.limit.symm ▸ hm, fun hu => absurd ((hmem _).mp hu) (by omega)⟩
      obtain rfl := Nat.le_antisymm hle (Nat.lt_of_not_le hge)
      have hheld : insert (m + 1) (Set.Icc 1 m) = Set.Icc 1 (m + 1) :=
        Set.ext fun id => by
          rw [Set.mem_insert_iff, Set.mem_Icc, Set.mem_Icc]
          omega
      exact ⟨_, hheld ▸ hrun.allocate hcall⟩
    | exhausted hall _ _ =>
      have hu := hall (m + 1) (hs.limit.symm ▸ hm)
      exact absurd ((hmem _).mp hu) (by omega)

/-- A SHA-256 sum with the given first four bytes. -/
def hashFrom (b₀ b₁ b₂ b₃ : UInt8) : List UInt8 := b₀ :: b₁ :: b₂ :: b₃ :: List.replicate 28 0

theorem hash_search_iff_oneHeld :
    ∃ a, IdRun 64 a (Set.Icc 1 1) ∧ ∃ r, a.allocateWithHash? (hashFrom 0 0 0 1) = some r ∧
      Answers (AllUsed 64 a) (FirstFree a.used 64 1) r := by
  obtain ⟨a, hrun⟩ : ∃ a, IdRun 64 a (Set.Icc 1 1) :=
    exists_idRun_upTo (by decide) (by decide)
  exact ⟨a, hrun, (hash_search_iff hrun).2.2 (by decide) (hashFrom 0 0 0 1)⟩

/-- The free id below the start is not found. -/
theorem hash_search_fails : ∃ a, IdRun 4294967232 a (Set.Icc 1 4294967231 \ {4294967230}) ∧
    4294967230 ∉ a.used ∧ ∃ a', a.allocateWithHash? (hashFrom 255 255 255 191) =
      some (.error errIDsExhausted, a') := by
  obtain ⟨a, hrun⟩ : ∃ a, IdRun 4294967232 a (Set.Icc 1 4294967231) :=
    exists_idRun_upTo (by decide) (by decide)
  have hheld : 4294967230 ∈ Set.Icc 1 4294967231 := by decide
  have hfreed := hrun.free hheld (free?_of_mem (hrun.sound.mem_used hheld))
  have hs := hfreed.sound
  have hlimit : (a.free 4294967230).numIDs = 4294967232 := hs.limit
  refine ⟨_, hfreed, ?_, _, (probe?_eq _ _ _ _).trans (congrArg some (Prod.ext ?_ rfl))⟩
  · rw [hs.used]
    simp
  · refine Probed.exhausted_of_skipped (IDAllocator.allocateWithHash_probed _ _)
      (IDAllocator.initialID_lt _ _) fun id hid hfree => ?_
    have hstart : (a.free 4294967230).initialID (hashFrom 255 255 255 191) = 4294967231 := by
      rw [initialID, hlimit]
      decide
    have heq : id = 4294967230 := by
      by_contra hne
      apply hfree
      rw [hs.used, Set.mem_insert_iff, Set.mem_sdiff, Set.mem_Icc]
      rw [hlimit] at hid
      by_cases h0 : id = 0
      · exact .inl h0
      · exact .inr ⟨⟨by omega, by omega⟩, hne⟩
    rw [hstart, hlimit, heq]
    exact ⟨by decide, by decide, by decide⟩

end OpenELB
