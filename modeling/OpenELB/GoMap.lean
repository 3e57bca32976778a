import Mathlib.Data.Finmap
import Mathlib.Data.List.Sort

/-! # Go maps

A Go map is a finite map or `nil`.  Reading a nil map gives no entry, deleting
from it does nothing, and `reflect.DeepEqual` tells it from an empty map, so the
model keeps it apart: `Map κ ν` is an optional `Finmap`, and equality of `Map`s
is `reflect.DeepEqual`.

The order in which `range` visits the entries is not specified.  A loop over a
map is modelled over a list of its keys, and `Ranges m ks` says that `ks` is a
possible order; a statement about the loop is then a statement about every such
list.  `get_rangeUpdate` is the rule for loops that rewrite or delete the entry
they visit: whatever the order, every entry is rewritten once. -/
namespace Go

variable {κ ν : Type} [DecidableEq κ]

/-- A Go map from `κ` to `ν`; `none` is the nil map. -/
def Map (κ ν : Type) : Type := Option (Finmap fun _ : κ => ν)

namespace Map

instance [DecidableEq ν] : DecidableEq (Map κ ν) :=
  inferInstanceAs (DecidableEq (Option (Finmap fun _ : κ => ν)))

/-- The nil map. -/
def nil : Map κ ν := none

/-- `make(map[κ]ν)`. -/
def empty : Map κ ν := some ∅

instance : Inhabited (Map κ ν) := ⟨nil⟩

/-- Whether the map is nil. -/
def isNil (m : Map κ ν) : Bool := Option.isNone m

/-- `m[k]`, with `none` when there is no entry. -/
def get (m : Map κ ν) (k : κ) : Option ν := Option.bind m (Finmap.lookup k)

/-- The map after `m[k] = v`.  Go panics on a nil map, and the code that assigns
makes the map first, which is what this does. -/
def set (m : Map κ ν) (k : κ) (v : ν) : Map κ ν := some ((Option.getD m ∅).insert k v)

/-- The map after `delete(m, k)`. -/
def delete (m : Map κ ν) (k : κ) : Map κ ν := Option.map (Finmap.erase k) m

/-- `len(m)`. -/
def len (m : Map κ ν) : Nat := (Option.getD m ∅).keys.card

/-- What a decoder makes of an encoded map: empty maps are left out of the
encoding, and come back nil. -/
def omitEmpty (m : Map κ ν) : Map κ ν := if m.len = 0 then nil else m

/-- A map literal. -/
def ofList (l : List (κ × ν)) : Map κ ν := l.foldl (fun m e => m.set e.1 e.2) empty

/-! ### Entries -/

@[simp] theorem get_nil (k : κ) : (nil : Map κ ν).get k = none := rfl

@[simp] theorem get_empty (k : κ) : (empty : Map κ ν).get k = none := by
  simp [get, empty]

theorem get_set (m : Map κ ν) (k k' : κ) (v : ν) :
    (m.set k v).get k' = if k' = k then some v else m.get k' := by
  cases m with
  | none =>
    by_cases h : k' = k
    · subst h; simp [get, set]
    · simp [get, set, h, Finmap.lookup_insert_of_ne]
  | some f =>
    by_cases h : k' = k
    · subst h; simp [get, set]
    · simp [get, set, h, Finmap.lookup_insert_of_ne]

@[simp] theorem get_set_self (m : Map κ ν) (k : κ) (v : ν) : (m.set k v).get k = some v := by
  simp [get_set]

theorem get_set_ne (m : Map κ ν) {k k' : κ} (v : ν) (h : k' ≠ k) :
    (m.set k v).get k' = m.get k' := by
  simp [get_set, h]

theorem get_delete (m : Map κ ν) (k k' : κ) :
    (m.delete k).get k' = if k' = k then none else m.get k' := by
  cases m with
  | none => simp [get, delete]
  | some f =>
    by_cases h : k' = k
    · subst h; simp [get, delete]
    · simp [get, delete, h, Finmap.lookup_erase_ne]

@[simp] theorem get_delete_self (m : Map κ ν) (k : κ) : (m.delete k).get k = none := by
  simp [get_delete]

/-- What holds of the new entry and of the others holds of every entry. -/
theorem forall_get_set {m : Map κ ν} {k : κ} {v : ν} {P : κ → ν → Prop} (hnew : P k v)
    (hold : ∀ k' v', k' ≠ k → m.get k' = some v' → P k' v') :
    ∀ k' v', (m.set k v).get k' = some v' → P k' v' := by
  intro k' v' hget
  rw [get_set] at hget
  split at hget
  · rename_i hk
    cases hget
    exact hk ▸ hnew
  · exact hold k' v' ‹_› hget

theorem forall_get_delete {m : Map κ ν} {k : κ} {P : κ → ν → Prop}
    (hold : ∀ k' v', k' ≠ k → m.get k' = some v' → P k' v') :
    ∀ k' v', (m.delete k).get k' = some v' → P k' v' := by
  intro k' v' hget
  rw [get_delete] at hget
  split at hget
  · cases hget
  · exact hold k' v' ‹_› hget

@[simp] theorem isNil_delete (m : Map κ ν) (k : κ) : (m.delete k).isNil = m.isNil := by
  cases m <;> rfl

/-- Two maps are `reflect.DeepEqual` when both or neither are nil and they have
the same entries. -/
theorem ext {m m' : Map κ ν} (hnil : m.isNil = m'.isNil) (h : ∀ k, m.get k = m'.get k) :
    m = m' := by
  cases m with
  | none =>
    cases m' with
    | none => rfl
    | some g => cases hnil
  | some f =>
    cases m' with
    | none => cases hnil
    | some g => exact congrArg some (Finmap.ext_lookup h)

theorem delete_of_get_none {m : Map κ ν} {k : κ} (h : m.get k = none) : m.delete k = m := by
  refine ext (by simp) ?_
  intro k'
  rw [get_delete]
  split
  · rename_i he; rw [he, h]
  · rfl

theorem set_of_get {m : Map κ ν} {k : κ} {v : ν} (h : m.get k = some v) : m.set k v = m := by
  refine ext ?_ ?_
  · cases m with
    | none => cases h
    | some f => rfl
  · intro k'
    rw [get_set]
    split
    · rename_i he; rw [he, h]
    · rfl

/-! ### Size -/

theorem mem_keys {m : Map κ ν} {k : κ} :
    k ∈ (Option.getD m ∅).keys ↔ (m.get k).isSome := by
  cases m with
  | none => simp [get]
  | some f => exact Finmap.mem_keys.trans Finmap.lookup_isSome.symm

theorem keys_set (m : Map κ ν) (k : κ) (v : ν) :
    (Option.getD (m.set k v) ∅).keys = insert k (Option.getD m ∅).keys := by
  ext k'
  rw [mem_keys, Finset.mem_insert, mem_keys, get_set]
  split <;> simp_all

theorem keys_delete (m : Map κ ν) (k : κ) :
    (Option.getD (m.delete k) ∅).keys = (Option.getD m ∅).keys.erase k := by
  ext k'
  rw [mem_keys, Finset.mem_erase, mem_keys, get_delete]
  split <;> simp_all

/-- A new entry makes the map one larger. -/
theorem len_set_new {m : Map κ ν} {k : κ} (v : ν) (h : m.get k = none) :
    (m.set k v).len = m.len + 1 := by
  rw [len, keys_set, Finset.card_insert_of_notMem, len]
  rw [mem_keys, h]
  simp

/-- Rewriting an entry keeps the size. -/
theorem len_set_old {m : Map κ ν} {k : κ} (v : ν) (h : (m.get k).isSome) :
    (m.set k v).len = m.len := by
  rw [len, keys_set, Finset.insert_eq_of_mem (mem_keys.mpr h), len]

/-- Deleting an entry makes the map one smaller. -/
theorem len_delete {m : Map κ ν} {k : κ} (h : (m.get k).isSome) :
    (m.delete k).len + 1 = m.len := by
  rw [len, keys_delete, Finset.card_erase_of_mem (mem_keys.mpr h), len]
  exact Nat.sub_add_cancel (Finset.card_pos.mpr ⟨k, mem_keys.mpr h⟩)

theorem len_eq_zero {m : Map κ ν} : m.len = 0 ↔ ∀ k, m.get k = none := by
  rw [len, Finset.card_eq_zero, Finset.eq_empty_iff_forall_notMem]
  refine forall_congr' fun k => ?_
  rw [mem_keys]
  simp

@[simp] theorem get_omitEmpty (m : Map κ ν) (k : κ) : m.omitEmpty.get k = m.get k := by
  rw [omitEmpty]
  split
  · rename_i h; rw [get_nil, len_eq_zero.mp h k]
  · rfl

/-- Maps with the same entries come back as the same map. -/
theorem omitEmpty_congr {m m' : Map κ ν} (h : ∀ k, m.get k = m'.get k) :
    m.omitEmpty = m'.omitEmpty := by
  have hlen : m.len = 0 ↔ m'.len = 0 := by
    rw [len_eq_zero, len_eq_zero]
    simp only [h]
  rw [omitEmpty, omitEmpty]
  by_cases h0 : m'.len = 0
  · rw [if_pos h0, if_pos (hlen.mpr h0)]
  · rw [if_neg h0, if_neg (mt hlen.mp h0)]
    refine ext ?_ h
    -- a nil map has no entries
    rcases m with _ | m
    · exact absurd (hlen.mp rfl) h0
    · rcases m' with _ | m'
      · exact absurd rfl h0
      · rfl

/-- A map whose keys all lie in the image of a list has at most as many entries
as the list. -/
theorem len_le_of_keys {m : Map κ ν} {l : List κ} (h : ∀ k, (m.get k).isSome → k ∈ l) :
    m.len ≤ l.length := by
  refine Nat.le_trans (Finset.card_le_card (t := l.toFinset) ?_) (List.toFinset_card_le l)
  intro k hk
  exact List.mem_toFinset.mpr (h k (mem_keys.mp hk))

/-- A map that has all keys of a list without duplicates has at least as many entries. -/
theorem le_len_of_keys {m : Map κ ν} {l : List κ} (hl : l.Nodup) (h : ∀ k ∈ l, (m.get k).isSome) :
    l.length ≤ m.len := by
  rw [← List.toFinset_card_of_nodup hl]
  refine Finset.card_le_card fun k hk => mem_keys.mpr (h k (List.mem_toFinset.mp hk))

/-! ### Looking for an entry -/

/-- Whether some entry satisfies `f`, as a loop that stops at the first finds out. -/
def any (m : Map κ ν) (f : κ → ν → Bool) : Bool :=
  decide (∃ k ∈ (Option.getD m ∅).keys, (m.get k).any (f k) = true)

theorem any_iff {m : Map κ ν} {f : κ → ν → Bool} :
    m.any f = true ↔ ∃ k v, m.get k = some v ∧ f k v = true := by
  rw [any, decide_eq_true_iff]
  constructor
  · rintro ⟨k, -, hk⟩
    cases hv : m.get k with
    | none =>
      rw [hv] at hk
      cases hk
    | some v =>
      rw [hv] at hk
      exact ⟨k, v, hv, hk⟩
  · rintro ⟨k, v, hv, hf⟩
    refine ⟨k, mem_keys.mpr (by rw [hv]; rfl), ?_⟩
    rw [hv]
    exact hf

/-- A statement about all entries is one about finitely many keys. -/
theorem forall_entries {m : Map κ ν} {P : κ → ν → Prop} :
    (∀ k v, m.get k = some v → P k v) ↔ ∀ k ∈ (Option.getD m ∅).keys, ∀ v ∈ m.get k, P k v := by
  constructor
  · exact fun h k _ v hv => h k v hv
  · exact fun h k v hv => h k (mem_keys.mpr (by rw [hv]; rfl)) v hv

/-! ### Values -/

/-- The values of the entries. -/
def values [DecidableEq ν] (m : Map κ ν) : Finset ν :=
  (Option.getD m ∅).keys.biUnion fun k => (m.get k).toFinset

theorem mem_values [DecidableEq ν] {m : Map κ ν} {v : ν} :
    v ∈ m.values ↔ ∃ k, m.get k = some v := by
  rw [values, Finset.mem_biUnion]
  constructor
  · rintro ⟨k, -, hv⟩
    exact ⟨k, Option.mem_toFinset.mp hv⟩
  · rintro ⟨k, hv⟩
    exact ⟨k, mem_keys.mpr (by rw [hv]; rfl), Option.mem_toFinset.mpr hv⟩

/-! ### Keys of another map -/

omit [DecidableEq κ] in
theorem nodupKeys_filter {s : Finmap fun _ : κ => ν} (p : κ → Prop) [DecidablePred p] :
    (s.entries.filter fun e => p e.1).NodupKeys := by
  have hkeys : s.entries.keys.Nodup := Multiset.nodup_keys.mpr s.nodupKeys
  exact Multiset.nodup_keys.mp
    (Multiset.nodup_of_le (Multiset.map_le_map (Multiset.filter_le _ _)) hkeys)

/-- The entries whose keys are not in the other map, in a map that is not nil. -/
def without (m other : Map κ ν) : Map κ ν :=
  some ⟨(Option.getD m ∅).entries.filter fun e => (other.get e.1).isNone,
    nodupKeys_filter fun k => (other.get k).isNone⟩

theorem get_without (m other : Map κ ν) (k : κ) :
    (m.without other).get k = if (other.get k).isNone then m.get k else none := by
  have hentry : ∀ v, m.get k = some v ↔ (⟨k, v⟩ : Σ _ : κ, ν) ∈ (Option.getD m ∅).entries := by
    intro v
    rw [← Finmap.lookup_eq_some_iff]
    cases m with
    | none => simp [get]
    | some f => rfl
  ext v
  have hw : (m.without other).get k = some v ↔ (⟨k, v⟩ : Σ _ : κ, ν) ∈
      (Option.getD m ∅).entries.filter fun e => (other.get e.1).isNone :=
    Finmap.lookup_eq_some_iff
  rw [hw, Multiset.mem_filter, ← hentry]
  by_cases h : (other.get k).isNone
  · simp [h]
  · simp [h]

theorem isSome_get_without {m other : Map κ ν} {k : κ} :
    ((m.without other).get k).isSome ↔ (m.get k).isSome ∧ other.get k = none := by
  rw [get_without]
  cases other.get k with
  | none => simp
  | some v => simp

/-! ### Ranging over a map -/

/-- `ks` is an order in which `range m` may visit the keys of `m`. -/
def Ranges (m : Map κ ν) (ks : List κ) : Prop :=
  ks.Nodup ∧ ∀ k, k ∈ ks ↔ (m.get k).isSome

instance (m : Map κ ν) (ks : List κ) : Decidable (m.Ranges ks) :=
  decidable_of_iff (ks.Nodup ∧ ks.toFinset = (Option.getD m ∅).keys) (by
    refine and_congr_right fun _ => ?_
    rw [Finset.ext_iff]
    refine forall_congr' fun k => ?_
    rw [List.mem_toFinset, mem_keys])

theorem Ranges.get_isSome {m : Map κ ν} {ks : List κ} (h : m.Ranges ks) {k : κ} (hk : k ∈ ks) :
    ∃ v, m.get k = some v :=
  Option.isSome_iff_exists.mp ((h.2 k).mp hk)

theorem Ranges.mem {m : Map κ ν} {ks : List κ} (h : m.Ranges ks) {k : κ} {v : ν}
    (hk : m.get k = some v) : k ∈ ks :=
  (h.2 k).mpr (by rw [hk]; rfl)

/-- Two orders have the same keys. -/
theorem Ranges.perm {m : Map κ ν} {ks ks' : List κ} (h : m.Ranges ks) (h' : m.Ranges ks') :
    ks.Perm ks' :=
  (List.perm_ext_iff_of_nodup h.1 h'.1).mpr fun k => (h.2 k).trans (h'.2 k).symm

/-- Every map can be ranged over. -/
theorem exists_ranges (m : Map κ ν) : ∃ ks, m.Ranges ks := by
  refine ⟨(Option.getD m ∅).keys.toList, Finset.nodup_toList _, ?_⟩
  intro k
  rw [Finset.mem_toList, mem_keys]

/-- Any key may be visited first. -/
theorem exists_ranges_cons {m : Map κ ν} {k : κ} (hk : (m.get k).isSome) :
    ∃ ks, m.Ranges (k :: ks) := by
  obtain ⟨ks, hnodup, hmem⟩ := exists_ranges m
  refine ⟨ks.erase k, List.nodup_cons.mpr ⟨hnodup.not_mem_erase, hnodup.erase k⟩, fun k' => ?_⟩
  rw [← hmem, List.mem_cons, hnodup.mem_erase_iff]
  by_cases h : k' = k
  · subst h
    simpa using (hmem _).mpr hk
  · simp [h]

/-- One visit of a loop that rewrites the entry it visits: `f k v` is the new
value, `none` deletes the entry. -/
def visit (f : κ → ν → Option ν) (m : Map κ ν) (k : κ) : Map κ ν :=
  match m.get k with
  | none => m
  | some v =>
    match f k v with
    | none => m.delete k
    | some v' => m.set k v'

theorem get_visit (f : κ → ν → Option ν) (m : Map κ ν) (k k' : κ) :
    (m.visit f k).get k' = if k' = k then (m.get k).bind (f k) else m.get k' := by
  rw [visit]
  cases hm : m.get k with
  | none =>
    by_cases h : k' = k
    · simp [h, hm]
    · simp [h]
  | some v =>
    cases hf : f k v with
    | none => simp [get_delete, hf]
    | some v' => simp [get_set, hf]

theorem isNil_foldl_visit (f : κ → ν → Option ν) (ks : List κ) {m : Map κ ν}
    (hm : m.isNil = false) : (ks.foldl (visit f) m).isNil = false := by
  induction ks generalizing m with
  | nil => exact hm
  | cons k ks ih =>
    refine ih ?_
    unfold visit
    split
    · exact hm
    · split
      · rwa [isNil_delete]
      · rfl

/-- **A loop that rewrites the entries it visits** rewrites every visited entry
once, whatever the order. -/
theorem get_foldl_visit (f : κ → ν → Option ν) (ks : List κ) (m : Map κ ν) (hks : ks.Nodup) (k : κ) :
    (ks.foldl (visit f) m).get k = if k ∈ ks then (m.get k).bind (f k) else m.get k := by
  induction ks generalizing m with
  | nil => simp
  | cons a ks ih =>
    obtain ⟨ha, hks⟩ := List.nodup_cons.mp hks
    rw [List.foldl_cons, ih _ hks, get_visit]
    by_cases hka : k = a
    · subst hka
      simp [ha]
    · simp [hka]

/-- A loop over the whole map rewrites every entry. -/
theorem get_rangeUpdate (f : κ → ν → Option ν) {ks : List κ} {m : Map κ ν} (hks : m.Ranges ks)
    (k : κ) : (ks.foldl (visit f) m).get k = (m.get k).bind (f k) := by
  rw [get_foldl_visit f ks m hks.1]
  split
  · rfl
  · rename_i hk
    cases hm : m.get k with
    | none => rfl
    | some v => exact absurd (hks.mem hm) hk

end Map
end Go
