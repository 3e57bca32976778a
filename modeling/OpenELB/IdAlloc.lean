import OpenELB.GoNet
import OpenELB.Probing
import Mathlib.Data.List.GetD
import Mathlib.Data.Set.Insert

/-! # The allocator of ids

`pkg/util/idalloc`: a bitmap of 64-bit blocks that grows by doubling up to a limit.
Id 0 is taken from the start.  `AllocateWithHash` looks for a free id from a start
that the first four bytes of a hash give, in cyclic order.

Block numbers and ids are `uint32`s; `IDAllocator` carries what keeps them in range.
What the bitmap stands for is the set of ids marked used (`IDAllocator.used`), and
the specifications are about that set: `used_free` for `Free`, and
`allocateWithHash_spec` for `AllocateWithHash`, which finds the first free id if
there is one.  `Allocate` finds the lowest one (`allocate_spec`).

The functions with a question mark check every index into the bitmap as Go does;
`none` is a panic. -/
namespace OpenELB
open Go
open Probing (FirstFree Skipped wrapped exists_wrapped_iff not_skipped)

/-- `idalloc.IDAllocator`. -/
structure IDAllocator where
  bits : List (BitVec 64)
  maxBlocks : Nat
  bits_pos : 0 < bits.length
  bits_le : bits.length ≤ maxBlocks
  maxBlocks_lt : maxBlocks < 2 ^ 26

namespace IDAllocator

/-- The value of a number after wrapping to 32 bits. -/
def uint32 (n : Nat) : Nat := n % 2 ^ 32

theorem blocks_bounds {numIDs : UInt32} (h : ¬ (numIDs.toNat = 0 ∨ numIDs.toNat % 64 ≠ 0)) :
    [(1 : BitVec 64)].length ≤ uint32 (numIDs.toNat + 64 - 1) / 64 ∧
      uint32 (numIDs.toNat + 64 - 1) / 64 < 2 ^ 26 := by
  have hlt := numIDs.toNat_lt
  have hcase : numIDs.toNat + 64 - 1 < 2 ^ 32 := by omega
  rw [uint32, Nat.mod_eq_of_lt hcase]
  constructor
  · show 1 ≤ _
    omega
  · omega

/-- `New`; `none` when it panics. -/
def new (numIDs : UInt32) : Option IDAllocator :=
  if h : numIDs.toNat = 0 ∨ numIDs.toNat % 64 ≠ 0 then none
  else some {
    bits := [1]
    maxBlocks := uint32 (numIDs.toNat + 64 - 1) / 64
    bits_pos := Nat.one_pos
    bits_le := (blocks_bounds h).1
    maxBlocks_lt := (blocks_bounds h).2 }

variable (a : IDAllocator)

/-- The number of blocks `grow` adds. -/
def growth : Nat :=
  if uint32 (2 * a.bits.length) > a.maxBlocks then a.maxBlocks - a.bits.length else a.bits.length

theorem growth_pos (h : ¬ a.maxBlocks ≤ a.bits.length) : 0 < a.growth := by
  have hpos := a.bits_pos
  rw [growth]
  split <;> omega

theorem growth_le (h : ¬ a.maxBlocks ≤ a.bits.length) :
    (a.bits ++ List.replicate a.growth 0).length ≤ a.maxBlocks := by
  have hlt := a.maxBlocks_lt
  rw [List.length_append, List.length_replicate, growth, uint32, Nat.mod_eq_of_lt (by omega)]
  split <;> omega

theorem length_append_pos (l : List (BitVec 64)) : 0 < (a.bits ++ l).length := by
  have hpos := a.bits_pos
  rw [List.length_append]
  omega

/-- `grow`; `none` when it cannot. -/
def grow : Option IDAllocator :=
  if h : a.maxBlocks ≤ a.bits.length then none
  else some { a with
    bits := a.bits ++ List.replicate a.growth 0
    bits_pos := a.length_append_pos _
    bits_le := a.growth_le h }

/-- The loop of `AllocateWithHash` that grows the bitmap until it has the block.  Every
round adds a block, so `maxBlocks` rounds are enough. -/
def growTo (block : Nat) : Nat → IDAllocator → Bool × IDAllocator
  | 0, a => (decide (block < a.bits.length), a)
  | fuel + 1, a =>
    if block < a.bits.length then (true, a)
    else
      match a.grow with
      | none => (false, a)
      | some a => growTo block fuel a

/-- The block of an id with its bit set or cleared. -/
def setBlock (block : Nat) (b : BitVec 64) : IDAllocator :=
  { a with
    bits := a.bits.set block b
    bits_pos := List.length_set.symm ▸ a.bits_pos
    bits_le := List.length_set.symm ▸ a.bits_le }

/-- `uint(1) << (id % bits.UintSize)`. -/
def mask (id : Nat) : BitVec 64 := 1#64 <<< (id % 64)

/-- `a.bits[i]`. -/
def block (i : Nat) : BitVec 64 := a.bits.getD i 0

/-- `a.bits[i] |= mask`. -/
def mark (id : Nat) : IDAllocator := a.setBlock (id / 64) (a.block (id / 64) ||| mask id)

/-- `Free`. -/
def free (id : Nat) : IDAllocator := a.setBlock (id / 64) (a.block (id / 64) &&& ~~~ mask id)

/-- `a.maxBlocks * bits.UintSize`, the number of ids. -/
def numIDs : Nat := uint32 (a.maxBlocks * 64)

/-- `ErrIDsExhausted`. -/
def errIDsExhausted : String := "no more IDs available"

/-- The loop of `AllocateWithHash`, with `n` rounds left. -/
def probe (initialID : Nat) : Nat → Nat → IDAllocator → Except String Nat × IDAllocator
  | 0, _, a => (.error errIDsExhausted, a)
  | n + 1, i, a =>
    let id := uint32 (initialID + i) % a.numIDs
    match a.growTo (id / 64) a.maxBlocks with
    | (false, a) => (.error errIDsExhausted, a)
    | (true, a) =>
      if a.block (id / 64) &&& mask id = 0 then (.ok id, a.mark id)
      else probe initialID n (i + 1) a

/-- Where `AllocateWithHash` begins. -/
def initialID (hash : List UInt8) : Nat := beNat (hash.take 4) % a.numIDs

/-- `AllocateWithHash`. -/
def allocateWithHash (hash : List UInt8) : Except String Nat × IDAllocator :=
  probe (a.initialID hash) a.numIDs 0 a

/-! ### With the indexes checked -/

/-- The loop of `Allocate` from the `i`th block on; `none` when the index is out of range,
or when the rounds left were not enough. -/
def allocateFrom : Nat → Nat → IDAllocator → Option (Except String Nat × IDAllocator)
  | 0, _, _ => none
  | fuel + 1, i, a =>
    match a.bits[i]? with
    | none => none
    | some curBlock =>
      if curBlock ≠ BitVec.allOnes 64 then
        let bb := (~~~ curBlock).ctz.toNat
        some (.ok (uint32 (i * 64 + bb)), a.setBlock i (curBlock ||| 1#64 <<< bb))
      else if i + 1 = a.bits.length then
        match a.grow with
        | none => some (.error errIDsExhausted, a)
        | some a => allocateFrom fuel (i + 1) a
      else allocateFrom fuel (i + 1) a

/-- `Allocate`.  Every round goes on to the next block, so `maxBlocks` rounds are enough. -/
def allocate : Option (Except String Nat × IDAllocator) := allocateFrom a.maxBlocks 0 a

/-- The loop of `AllocateWithHash`. -/
def probe? (initialID : Nat) : Nat → Nat → IDAllocator → Option (Except String Nat × IDAllocator)
  | 0, _, a => some (.error errIDsExhausted, a)
  | n + 1, i, a =>
    let id := uint32 (initialID + i) % a.numIDs
    match a.growTo (id / 64) a.maxBlocks with
    | (false, a) => some (.error errIDsExhausted, a)
    | (true, a) =>
      match a.bits[id / 64]? with
      | none => none
      | some b =>
        if b &&& mask id = 0 then some (.ok id, a.mark id)
        else probe? initialID n (i + 1) a

/-- `AllocateWithHash`. -/
def allocateWithHash? (hash : List UInt8) : Option (Except String Nat × IDAllocator) :=
  probe? (a.initialID hash) a.numIDs 0 a

/-- `Free`. -/
def free? (id : Nat) : Option IDAllocator :=
  match a.bits[id / 64]? with
  | none => none
  | some _ => some (a.free id)

/-! ## The set of used ids -/

/-- The ids marked used. -/
def used : Set Nat := {id | (a.block (id / 64)).getLsbD (id % 64) = true}

instance (id : Nat) : Decidable (id ∈ a.used) :=
  inferInstanceAs (Decidable ((a.block (id / 64)).getLsbD (id % 64) = true))

theorem getLsbD_mask (id j : Nat) (hj : j < 64) : (mask id).getLsbD j = decide (j = id % 64) := by
  have hid : id % 64 < 64 := Nat.mod_lt _ (by decide)
  rw [mask, BitVec.getLsbD_shiftLeft, BitVec.getLsbD_one]
  by_cases h : j = id % 64
  · simp [h, hid]
  · simp only [hj, h, decide_true, decide_false, Bool.true_and]
    simp
    omega

theorem block_setBlock {i : Nat} (hi : i < a.bits.length) (b : BitVec 64) (j : Nat) :
    (a.setBlock i b).block j = if j = i then b else a.block j := by
  rw [setBlock, block, List.getD_eq_getElem?_getD, List.getElem?_set]
  split
  · rename_i h
    subst h
    simp
  · rename_i h
    rw [if_neg (Ne.symm h), block, List.getD_eq_getElem?_getD]

/-- **Marking an id adds it.** -/
theorem used_mark {id : Nat} (hid : id / 64 < a.bits.length) :
    (a.mark id).used = insert id a.used := by
  ext j
  have hj : j % 64 < 64 := Nat.mod_lt _ (by decide)
  rw [Set.mem_insert_iff]
  show ((a.mark id).block (j / 64)).getLsbD (j % 64) = true ↔
    _ ∨ (a.block (j / 64)).getLsbD (j % 64) = true
  rw [mark, block_setBlock a hid]
  by_cases hb : j / 64 = id / 64
  · have hbit : j = id ↔ j % 64 = id % 64 := by omega
    rw [if_pos hb, BitVec.getLsbD_or, getLsbD_mask id _ hj, Bool.or_eq_true, decide_eq_true_iff,
      hb, hbit, or_comm]
  · have hne : j ≠ id := fun h => hb (congrArg (· / 64) h)
    rw [if_neg hb]
    simp [hne]

/-- **Freeing an id removes it.** -/
theorem used_free {id : Nat} (hid : id / 64 < a.bits.length) :
    (a.free id).used = a.used \ {id} := by
  ext j
  have hj : j % 64 < 64 := Nat.mod_lt _ (by decide)
  rw [Set.mem_sdiff, Set.mem_singleton_iff]
  show ((a.free id).block (j / 64)).getLsbD (j % 64) = true ↔
    (a.block (j / 64)).getLsbD (j % 64) = true ∧ _
  rw [free, block_setBlock a hid]
  by_cases hb : j / 64 = id / 64
  · have hbit : j = id ↔ j % 64 = id % 64 := by omega
    rw [if_pos hb, BitVec.getLsbD_and, BitVec.getLsbD_not, getLsbD_mask id _ hj, hb, hbit]
    simp [hj]
  · have hne : j ≠ id := fun h => hb (congrArg (· / 64) h)
    rw [if_neg hb]
    simp [hne]

/-- The test of the bit in the loop. -/
theorem block_and_mask_eq_zero {id : Nat} : a.block (id / 64) &&& mask id = 0 ↔ id ∉ a.used := by
  have hid : id % 64 < 64 := Nat.mod_lt _ (by decide)
  constructor
  · intro h hu
    have hbit := congrArg (fun b => b.getLsbD (id % 64)) h
    simp only [BitVec.getLsbD_and, getLsbD_mask id _ hid] at hbit
    have hu' : (a.block (id / 64)).getLsbD (id % 64) = true := hu
    simp [hu'] at hbit
  · intro h
    refine BitVec.eq_of_getLsbD_eq fun j hj => ?_
    rw [BitVec.getLsbD_and, getLsbD_mask id _ hj]
    by_cases hb : j = id % 64
    · have hu : (a.block (id / 64)).getLsbD (id % 64) = false := Bool.eq_false_iff.mpr h
      simp [hb, hu]
    · simp [hb]

theorem used_lt {id : Nat} (h : id ∈ a.used) : id / 64 < a.bits.length := by
  by_contra hge
  have hb : a.block (id / 64) = 0 := List.getD_eq_default _ _ (Nat.le_of_not_lt hge)
  have hu : (a.block (id / 64)).getLsbD (id % 64) = true := h
  rw [hb] at hu
  simp at hu

/-- Growing adds no id. -/
theorem grow_spec {a' : IDAllocator} (h : a.grow = some a') :
    a'.used = a.used ∧ a'.maxBlocks = a.maxBlocks ∧ a.bits.length < a'.bits.length := by
  rw [grow] at h
  split at h
  · cases h
  · rename_i hlt
    have hpos := a.growth_pos hlt
    cases h
    refine ⟨Set.ext fun id => ?_, rfl, ?_⟩
    · show (List.getD (a.bits ++ _) _ _).getLsbD _ = true ↔ (a.bits.getD _ _).getLsbD _ = true
      by_cases hid : id / 64 < a.bits.length
      · rw [List.getD_append _ _ _ _ hid]
      · rw [List.getD_append_right _ _ _ _ (Nat.le_of_not_lt hid),
          List.getD_eq_default _ _ (Nat.le_of_not_lt hid)]
        simp
    · show _ < (a.bits ++ List.replicate a.growth 0).length
      rw [List.length_append, List.length_replicate]
      omega

/-- The bitmap can be grown to any block below the limit. -/
theorem growTo_spec {block fuel : Nat} {a : IDAllocator} (hb : block < a.maxBlocks)
    (hfuel : a.maxBlocks ≤ a.bits.length + fuel) :
    ∃ a', growTo block fuel a = (true, a') ∧ a'.used = a.used ∧ a'.maxBlocks = a.maxBlocks ∧
      block < a'.bits.length := by
  induction fuel generalizing a with
  | zero => exact ⟨a, by simp [growTo]; omega, rfl, rfl, by omega⟩
  | succ fuel ih =>
    rw [growTo]
    split
    · exact ⟨a, rfl, rfl, rfl, ‹_›⟩
    · rename_i hge
      cases hg : a.grow with
      | none =>
        rw [grow] at hg
        split at hg
        · omega
        · cases hg
      | some a₁ =>
        obtain ⟨hu, hm, hlt⟩ := a.grow_spec hg
        obtain ⟨a', hrun, hu', hm', hb'⟩ := ih (a := a₁) (by omega) (by omega)
        exact ⟨a', hrun, hu'.trans hu, hm'.trans hm, hb'⟩

theorem numIDs_eq : a.numIDs = a.maxBlocks * 64 := by
  have hlt := a.maxBlocks_lt
  rw [numIDs, uint32, Nat.mod_eq_of_lt (by omega)]

theorem numIDs_pos : 0 < a.numIDs := by
  have hpos := a.bits_pos
  have hle := a.bits_le
  rw [numIDs_eq]
  omega

theorem used_bit {b : BitVec 64} (hb : a.bits = [b]) (id : Nat) :
    id ∈ a.used ↔ id < 64 ∧ b.getLsbD id = true := by
  show (a.block (id / 64)).getLsbD (id % 64) = true ↔ _
  rw [block, hb]
  by_cases h : id < 64
  · rw [Nat.div_eq_of_lt h, Nat.mod_eq_of_lt h]
    simp [h]
  · obtain ⟨m, hm⟩ : ∃ m, id / 64 = m + 1 := ⟨id / 64 - 1, by omega⟩
    simp [hm, h]

/-- **A new allocator has only the id 0 in use.** -/
theorem new_spec {numIDs : UInt32} {a : IDAllocator} (h : new numIDs = some a) :
    a.used = {0} ∧ a.numIDs = numIDs.toNat := by
  rw [new] at h
  split at h
  · cases h
  · rename_i hn
    have hlt := numIDs.toNat_lt
    cases h
    constructor
    · ext id
      rw [used_bit _ rfl, BitVec.ofNat_eq_ofNat, BitVec.getLsbD_one, Set.mem_singleton_iff]
      simp only [Nat.zero_lt_succ, decide_true, Bool.true_and, decide_eq_true_iff]
      omega
    · rw [numIDs_eq]
      show uint32 (numIDs.toNat + 64 - 1) / 64 * 64 = _
      rw [uint32, Nat.mod_eq_of_lt (by omega)]
      omega

/-! ## The search for a free id -/

/-- What a call of the allocator can do: it hands out an id and marks it, or it fails
and leaves the set as it is. -/
inductive Allocated (a : IDAllocator) (start : Nat) : Except String Nat × IDAllocator → Prop
  | found {id : Nat} {a' : IDAllocator} : FirstFree a.used a.numIDs start id →
      a'.used = insert id a.used → a'.maxBlocks = a.maxBlocks → Allocated a start (.ok id, a')
  | exhausted {a' : IDAllocator} : (∀ id < a.numIDs, id ∈ a.used) →
      a'.used = a.used → a'.maxBlocks = a.maxBlocks →
      Allocated a start (.error errIDsExhausted, a')

/-- The rounds of the loop of `AllocateWithHash`: the first one that comes to a free id
ends it. -/
inductive Probed (a : IDAllocator) (start : Nat) : Except String Nat × IDAllocator → Prop
  | found {i : Nat} {a' : IDAllocator} : i < a.numIDs →
      wrapped (2 ^ 32) a.numIDs start i ∉ a.used →
      (∀ j < i, wrapped (2 ^ 32) a.numIDs start j ∈ a.used) →
      a'.used = insert (wrapped (2 ^ 32) a.numIDs start i) a.used → a'.maxBlocks = a.maxBlocks →
      Probed a start (.ok (wrapped (2 ^ 32) a.numIDs start i), a')
  | exhausted {a' : IDAllocator} : (∀ j < a.numIDs, wrapped (2 ^ 32) a.numIDs start j ∈ a.used) →
      a'.used = a.used → a'.maxBlocks = a.maxBlocks → Probed a start (.error errIDsExhausted, a')

/-- The search from the `i`th round on, when all before came to used ids. -/
theorem probe_spec {start n i : Nat} {a a₀ : IDAllocator} (hused : a.used = a₀.used)
    (hmax : a.maxBlocks = a₀.maxBlocks) (hn : i + n = a₀.numIDs)
    (hbefore : ∀ j < i, wrapped (2 ^ 32) a₀.numIDs start j ∈ a₀.used) :
    Probed a₀ start (probe start n i a) := by
  induction n generalizing i a with
  | zero => exact .exhausted (fun j hj => hbefore j (by omega)) hused hmax
  | succ n ih =>
    have hN : a.numIDs = a₀.numIDs := by rw [numIDs_eq, numIDs_eq, hmax]
    have hid : uint32 (start + i) % a.numIDs = wrapped (2 ^ 32) a₀.numIDs start i := by
      rw [hN, uint32, wrapped]
    have hlt : wrapped (2 ^ 32) a₀.numIDs start i < a₀.numIDs := Nat.mod_lt _ a₀.numIDs_pos
    have hblock : wrapped (2 ^ 32) a₀.numIDs start i / 64 < a.maxBlocks := by
      have hnum := a₀.numIDs_eq
      omega
    rw [probe]
    simp only [hid]
    obtain ⟨a', hgrow, hu, hm, hb⟩ := growTo_spec hblock
      (show a.maxBlocks ≤ a.bits.length + a.maxBlocks by omega)
    rw [hgrow]
    dsimp only
    split
    · rename_i hfree
      rw [block_and_mask_eq_zero, hu, hused] at hfree
      refine .found (by omega) hfree hbefore ?_ (hm.trans hmax)
      rw [used_mark a' hb, hu, hused]
    · rename_i htaken
      rw [block_and_mask_eq_zero, hu, hused, not_not] at htaken
      refine ih (hu.trans hused) (hm.trans hmax) (by omega) fun j hj => ?_
      rcases Nat.lt_succ_iff_lt_or_eq.mp hj with hj | rfl
      · exact hbefore j hj
      · exact htaken

theorem numIDs_le : a.numIDs ≤ 2 ^ 32 := Nat.le_of_lt (Nat.mod_lt _ (by decide))

theorem initialID_lt (hash : List UInt8) : a.initialID hash < a.numIDs :=
  Nat.mod_lt _ a.numIDs_pos

/-- **`AllocateWithHash`, round by round.** -/
theorem allocateWithHash_probed (hash : List UInt8) :
    Probed a (a.initialID hash) (a.allocateWithHash hash) :=
  probe_spec rfl rfl (Nat.zero_add _) fun j hj => absurd hj (Nat.not_lt_zero j)

variable {a} in
/-- The rounds are a search of the circle, if the free ids are not all skipped. -/
theorem Probed.allocated {start : Nat} {r : Except String Nat × IDAllocator}
    (h : Probed a start r) (hstart : start < a.numIDs)
    (hseen : (∀ id < a.numIDs, id ∉ a.used → Skipped (2 ^ 32) a.numIDs start id) →
      ∀ id < a.numIDs, id ∈ a.used) : Allocated a start r := by
  cases h with
  | found hi hfree hbefore hused hmax =>
    exact .found (.of_wrapped a.numIDs_le hstart hi hfree hbefore) hused hmax
  | exhausted hall hused hmax =>
    refine .exhausted (hseen fun id hid hfree => ?_) hused hmax
    by_contra hskip
    obtain ⟨i, hi, rfl⟩ := (exists_wrapped_iff a.numIDs_le hstart hid).mpr hskip
    exact hfree (hall i hi)

/-- **`AllocateWithHash` finds the first free id**, and fails only if there is none, if
there are not more than `2 ^ 31` ids. -/
theorem allocateWithHash_spec (hash : List UInt8) (hsmall : 2 * a.numIDs ≤ 2 ^ 32) :
    Allocated a (a.initialID hash) (a.allocateWithHash hash) := by
  refine (a.allocateWithHash_probed hash).allocated (a.initialID_lt hash) fun hskip id hid => ?_
  by_contra hfree
  exact not_skipped hsmall (a.initialID_lt hash) (hskip id hid hfree)

/-! ### The lowest free id -/

theorem mark_of_block {i bb : Nat} {b : BitVec 64} (hi : a.bits[i]? = some b) (hbb : bb < 64) :
    a.setBlock i (b ||| 1#64 <<< bb) = a.mark (i * 64 + bb) := by
  have hdiv : (i * 64 + bb) / 64 = i := by omega
  have hmod : (i * 64 + bb) % 64 = bb := by omega
  have hb : a.block i = b := by rw [block, List.getD_eq_getElem?_getD, hi, Option.getD_some]
  rw [mark, mask, hdiv, hmod, hb]

/-- In a block that is not full, the lowest bit that is not set. -/
theorem ctz_not_spec {b : BitVec 64} (h : b ≠ BitVec.allOnes 64) :
    (~~~ b).ctz.toNat < 64 ∧ b.getLsbD (~~~ b).ctz.toNat = false ∧
      ∀ j < (~~~ b).ctz.toNat, b.getLsbD j = true := by
  have hne : ~~~ b ≠ 0#64 := by
    intro he
    have hb := congrArg (fun x => ~~~ x) he
    rw [BitVec.not_not] at hb
    exact h (hb.trans (by decide))
  have hset := BitVec.getLsbD_true_ctz_of_ne_zero hne
  have hlt : (~~~ b).ctz.toNat < 64 := BitVec.lt_of_getLsbD hset
  refine ⟨hlt, ?_, fun j hj => ?_⟩
  · rw [BitVec.getLsbD_not] at hset
    simpa [hlt] using hset
  · have hclear := BitVec.getLsbD_false_of_lt_ctz hj
    have hj' : j < 64 := Nat.lt_trans hj hlt
    rw [BitVec.getLsbD_not] at hclear
    simpa [hj'] using hclear

/-- The search from the `i`th block on, when all ids before are used. -/
theorem allocateFrom_spec {fuel i : Nat} {a a₀ : IDAllocator} (hused : a.used = a₀.used)
    (hmax : a.maxBlocks = a₀.maxBlocks) (hi : i < a.bits.length) (hfuel : a.maxBlocks ≤ i + fuel)
    (hbefore : ∀ id < i * 64, id ∈ a₀.used) :
    ∃ r, allocateFrom fuel i a = some r ∧ Allocated a₀ 0 r := by
  have hle := a.bits_le
  have hlt := a₀.maxBlocks_lt
  have hnum := a₀.numIDs_eq
  induction fuel generalizing i a with
  | zero => omega
  | succ fuel ih =>
    obtain ⟨b, hget⟩ : ∃ b, a.bits[i]? = some b := ⟨_, List.getElem?_eq_getElem hi⟩
    have hbit : ∀ j < 64, i * 64 + j ∈ a₀.used ↔ b.getLsbD j = true := by
      intro j hj
      have hblock : a.block ((i * 64 + j) / 64) = b := by
        rw [show (i * 64 + j) / 64 = i by omega, block, List.getD_eq_getElem?_getD, hget,
          Option.getD_some]
      rw [← hused]
      show (a.block ((i * 64 + j) / 64)).getLsbD ((i * 64 + j) % 64) = true ↔ _
      rw [hblock, show (i * 64 + j) % 64 = j by omega]
    rw [allocateFrom, hget]
    dsimp only
    split
    · rename_i hfull
      obtain ⟨hbb, hfree, hlow⟩ := ctz_not_spec hfull
      have hid : uint32 (i * 64 + (~~~ b).ctz.toNat) = i * 64 + (~~~ b).ctz.toNat := by
        rw [uint32, Nat.mod_eq_of_lt (by omega)]
      refine ⟨_, rfl, ?_⟩
      rw [hid, mark_of_block a hget hbb]
      refine .found ⟨i * 64 + (~~~ b).ctz.toNat, by omega, ?_, ?_, fun j hj => ?_⟩ ?_ hmax
      · rw [Nat.zero_add, Nat.mod_eq_of_lt (by omega)]
      · rw [hbit _ hbb, hfree]
        exact Bool.false_ne_true
      · rw [Nat.zero_add, Nat.mod_eq_of_lt (by omega)]
        by_cases hj64 : j < i * 64
        · exact hbefore j hj64
        · obtain ⟨m, rfl⟩ : ∃ m, j = i * 64 + m := ⟨j - i * 64, by omega⟩
          exact (hbit m (by omega)).mpr (hlow m (by omega))
      · rw [used_mark a (by omega), hused]
    · rename_i hfull
      rw [not_not] at hfull
      have hbefore' : ∀ id < (i + 1) * 64, id ∈ a₀.used := by
        intro id hid
        by_cases hid64 : id < i * 64
        · exact hbefore id hid64
        · obtain ⟨m, rfl⟩ : ∃ m, id = i * 64 + m := ⟨id - i * 64, by omega⟩
          rw [hbit m (by omega), hfull, BitVec.getLsbD_allOnes]
          simpa using (show m < 64 by omega)
      split
      · rename_i hlast
        cases hg : a.grow with
        | none =>
          -- all blocks have been visited
          have hall : a.maxBlocks ≤ a.bits.length := by
            rw [grow] at hg
            split at hg
            · assumption
            · cases hg
          exact ⟨_, rfl, .exhausted (fun id hid => hbefore' id (by omega)) hused hmax⟩
        | some a₁ =>
          obtain ⟨hu, hm, hlen⟩ := a.grow_spec hg
          exact ih (hu.trans hused) (hm.trans hmax) (by omega) (by omega) hbefore' a₁.bits_le
      · exact ih hused hmax (by omega) (by omega) hbefore' hle

/-- **`Allocate` finds the lowest free id**, and fails only if there is none. -/
theorem allocate_spec : ∃ r, a.allocate = some r ∧ Allocated a 0 r :=
  allocateFrom_spec rfl rfl a.bits_pos (by omega) fun id hid => by omega

end IDAllocator
end OpenELB
